import RubyCheck.Proofs.Position
import RubyCheck.Proofs.Tree.Layout
import RubyCheck.Tree.BoundedLiteral

/-!
# Values of literals have 128 bits

An integer without a sign that has a value at all is no greater than its negation can be, so negating
it, however often, never goes beyond 128 bits (`Node.boundedLiteral?_eq`).
-/

namespace RubyCheck

namespace Number

variable {base : ℕ} {cs : List Char}

/-! ### Case -/

/-- Capital letters are few, and every other character is left as it is. -/
lemma toLower_induction {P : Char → Char → Prop} (hcapital : ∀ n ≤ 'Z'.toNat, 'A'.toNat ≤ n →
      P (Char.ofNat n) (Char.ofNat n).toLower) (hother : ∀ c, P c c) (c : Char) : P c c.toLower := by
  by_cases hc : c.val ≥ 'A'.val ∧ c.val ≤ 'Z'.val
  · have hholds := hcapital c.toNat (UInt32.le_iff_toNat_le.mp hc.2) (UInt32.le_iff_toNat_le.mp hc.1)
    rwa [Char.ofNat_toNat] at hholds
  · have hsame : c.toLower = c := dif_neg hc
    rw [hsame]
    exact hother c

/-- The case of a letter does not matter to its value as a digit. -/
lemma digitValue?_toLower (c : Char) : digitValue? c.toLower = digitValue? c :=
  toLower_induction (P := fun c d => digitValue? d = digitValue? c) (by decide) (fun _ => rfl) c

lemma isSign_toLower (c : Char) : isSign c.toLower = isSign c :=
  toLower_induction (P := fun c d => isSign d = isSign c) (by decide) (fun _ => rfl) c

lemma toLower_eq_zero (c : Char) : c.toLower = '0' ↔ c = '0' :=
  toLower_induction (P := fun c d => d = '0' ↔ c = '0') (by decide) (fun _ => Iff.rfl) c

lemma digitsFrom?_map_toLower (base value : ℕ) (cs : List Char) :
    digitsFrom? base value (cs.map Char.toLower) = digitsFrom? base value cs := by
  induction cs generalizing value with
  | nil => rfl
  | cons c cs ih =>
    rw [List.map_cons, digitsFrom?, digitsFrom?, digitValue?_toLower]
    cases digitValue? c with
    | none => rfl
    | some d => simp only [ih]

lemma digits?_map_toLower (base : ℕ) (cs : List Char) :
    digits? base (cs.map Char.toLower) = digits? base cs := by
  cases cs with
  | nil => rfl
  | cons c cs => exact digitsFrom?_map_toLower base 0 (c :: cs)

/-! ### Values -/

lemma has128Bits_ofNat (n : ℕ) : has128Bits (Int.ofNat n) = decide (n < Nat.pow 2 127) := by
  have hpow : Int.pow 2 127 = Int.ofNat (Nat.pow 2 127) := rfl
  rw [has128Bits, hpow, Bool.eq_iff_iff]
  generalize Nat.pow 2 127 = m
  simp

/-- Digits that are no signs, whatever their case. -/
lemma signed?_map_toLower (h : ∀ c ∈ cs, isSign c = false) :
    signed? base (cs.map Char.toLower) =
      ((digits? base cs).filter (· < Nat.pow 2 127)).map (Int.ofNat ·) := by
  have hvalue : signed? base (cs.map Char.toLower) =
      ((digits? base (cs.map Char.toLower)).map (Int.ofNat ·)).filter has128Bits := by
    have hlower : ∀ c ∈ cs.map Char.toLower, isSign c = false :=
      List.forall_mem_map.mpr fun c hc => (isSign_toLower c).trans (h c hc)
    generalize cs.map Char.toLower = ds at hlower
    unfold signed?
    split
    · simp [isSign] at hlower
    · simp [isSign] at hlower
    · rfl
  rw [hvalue, digits?_map_toLower]
  cases digits? base cs with
  | none => rfl
  | some n =>
    simp only [Option.map_some, Option.filter, has128Bits_ofNat]
    split <;> rfl

/-- The zero that makes an integer octal takes one byte. -/
lemma dropBytes?_zero (cs : List Char) : Source.dropBytes? ('0' :: cs) 1 = some cs := by
  have hdrop := Source.dropBytes?_append ['0'] cs
  exact hdrop

/-- The value of an integer without a sign is what it is written as. -/
theorem ofText?_eq (h : ∀ c ∈ cs, isSign c = false) :
    ofText? cs = some ((integer? cs).map (Int.ofNat ·)) := by
  have hdigits : ∀ c ∈ withoutUnderscores cs, isSign c = false :=
    fun c hc => h c (List.mem_of_mem_filter hc)
  unfold ofText? integer?
  generalize withoutUnderscores cs = ds at hdigits
  have hplain (hne : ∀ d c rest, ds = d :: c :: rest → d ≠ '0') : baseAndDigits ds = (10, ds) := by
    unfold baseAndDigits
    split
    · rfl
    · exact absurd rfl (hne _ _ _ rfl)
    · rfl
  by_cases hzero : ∃ c rest, ds = '0' :: c :: rest
  · obtain ⟨c, rest, rfl⟩ := hzero
    obtain ⟨-, hc⟩ := List.forall_mem_cons.mp hdigits
    obtain ⟨-, hrest⟩ := List.forall_mem_cons.mp hc
    rw [baseAndDigits, List.map_cons, List.map_cons, show '0'.toLower = '0' from rfl]
    have hbase (base : ℕ) : signed? base (rest.map Char.toLower) =
        ((digits? base rest).filter (· < Nat.pow 2 127)).map (Int.ofNat ·) :=
      signed?_map_toLower hrest
    by_cases hx : c.toLower = 'x'
    · simp only [hx, hbase]
    by_cases hb : c.toLower = 'b'
    · simp only [hb, hbase]
    by_cases ho : c.toLower = 'o'
    · simp only [ho, hbase]
    by_cases hd : c.toLower = 'd'
    · simp only [hd, hbase]
    have hoctal : signed? 8 ((c :: rest).map Char.toLower) =
        ((digits? 8 (c :: rest)).filter (· < Nat.pow 2 127)).map (Int.ofNat ·) :=
      signed?_map_toLower hc
    rw [List.map_cons] at hoctal
    simp only [dropBytes?_zero, hoctal, Option.map_some]
  · have hne : ∀ d c rest, ds = d :: c :: rest → d ≠ '0' := by
      rintro d c rest rfl rfl
      exact hzero ⟨c, rest, rfl⟩
    have hlower : ∀ d c rest, ds.map Char.toLower = d :: c :: rest → d ≠ '0' := by
      rintro d c rest hds rfl
      obtain ⟨d', ds', rfl, hd, hds'⟩ := List.map_eq_cons_iff.mp hds
      obtain ⟨c', ds'', rfl, -⟩ := List.map_eq_cons_iff.mp hds'
      exact hne d' c' ds'' rfl ((toLower_eq_zero d').mp hd)
    rw [hplain hne, ← signed?_map_toLower hdigits]
    generalize ds.map Char.toLower = es at hlower
    split
    case h_6 => rfl
    all_goals exact absurd rfl (hlower _ _ _ rfl)

/-- The value of an integer is less than the least that has no 128 bits. -/
lemma lt_of_integer? {n : ℕ} (h : integer? cs = some n) : n < Nat.pow 2 127 := by
  unfold integer? at h
  exact of_decide_eq_true (Option.filter_eq_some_iff.mp h).2

end Number

/-! ### Literals -/

lemma LiteralValue.ofInteger?_eq (text : String) : ofInteger? text =
    ((Number.integer? text.toList).map (Int.ofNat ·)).map integer := by
  unfold ofInteger?
  cases Number.integer? text.toList <;> rfl

namespace Node

variable {n : Node} {v : ℤ}

/-- If a node is an integer, no sign is written in it. -/
def Unsigned (n : Node) : Prop :=
  n.kind = .integer → ∀ text ∈ n.text, ∀ c ∈ text.toList, Number.isSign c = false

/-- The values of integers and of their negations lie between two numbers that are as far from zero. -/
theorem lt_of_literal? (h : n.literal? = some (.integer v)) :
    -Int.pow 2 127 < v ∧ v < Int.pow 2 127 := by
  fun_induction Node.literal? n generalizing v with
  | case1 span text =>
    rw [LiteralValue.ofInteger?_eq] at h
    obtain ⟨w, hw, hv⟩ := Option.map_eq_some_iff.mp h
    obtain rfl := LiteralValue.integer.inj hv
    obtain ⟨n, hn, rfl⟩ := Option.map_eq_some_iff.mp hw
    have hlt := Number.lt_of_integer? hn
    have hpow : Int.pow 2 127 = Int.ofNat (Nat.pow 2 127) := rfl
    rw [hpow]
    generalize Nat.pow 2 127 = m at hlt
    simp only [Int.ofNat_eq_natCast]
    omega
  | case2 span text =>
    obtain ⟨bits, -, hbits⟩ := Option.map_eq_some_iff.mp h
    cases hbits
  | case4 span text =>
    unfold LiteralValue.ofCharacter? at h
    split at h
    · cases h
    · cases h
  | case10 span text operand rest hminus ih =>
    obtain ⟨value, hvalue, hneg⟩ := Option.bind_eq_some_iff.mp h
    cases value with
    | integer w =>
      obtain rfl := LiteralValue.integer.inj (Option.some.inj hneg)
      have hw := ih hvalue
      omega
    | _ => cases hneg
  | _ => cases h

/-- A value that lies between the two has a negation of 128 bits. -/
lemma negated?_eq (h : -Int.pow 2 127 < v ∧ v < Int.pow 2 127) : Number.negated? v = some (-v) := by
  have hbits : Number.has128Bits (-v) = true := by
    rw [Number.has128Bits, Bool.and_eq_true, decide_eq_true_eq, decide_eq_true_eq]
    omega
  rw [Number.negated?, if_pos hbits]

/-- Without signs in its integers, a tree has no literal whose value is out of range. -/
theorem boundedLiteral?_eq (h : n.Everywhere Unsigned) :
    n.boundedLiteral? = some n.literal? := by
  fun_induction Node.boundedLiteral? n with
  | case1 span text children =>
    rw [Number.ofText?_eq (h.root rfl text rfl), Option.map_some, Node.literal?,
      LiteralValue.ofInteger?_eq]
  | case2 span text operand rest hminus ih =>
    rw [ih (h.children operand List.mem_cons_self), Option.bind_some, Node.literal?, if_pos hminus]
    cases hvalue : operand.literal? with
    | none => rfl
    | some value =>
      cases value with
      | integer v =>
        simp only [negated?_eq (lt_of_literal? hvalue)]
        rfl
      | _ => rfl
  | case3 span text operand rest hminus => rw [Node.literal?, if_neg hminus]
  | case4 n => rfl

end Node

end RubyCheck
