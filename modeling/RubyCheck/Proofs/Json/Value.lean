import RubyCheck.Json.Value
import RubyCheck.Proofs.Json.Text

/-!
# Values and how they are written

A value whose strings and keys are texts is read back from what is written of it (`read?_write`).
The lexemes of what is written are those that the value says it has (`lexemesFrom_write`), and as
many steps as there are lexemes are enough to read them (`value_pieces`).
-/

namespace RubyCheck.Json

/-! ### Values that hold texts -/

mutual

/-- Values all of whose strings and keys are texts as they are written, without numbers and words. -/
inductive Textual : Json → Prop
  | string {cs ws : List Char} : Spells cs ws → Textual (.string ws)
  | array {xs : List Json} : TextualItems xs → Textual (.array xs)
  | object {ms : List (List Char × Json)} : TextualMembers ms → Textual (.object ms)

/-- Items that are all such values. -/
inductive TextualItems : List Json → Prop
  | nil : TextualItems []
  | cons {x : Json} {xs : List Json} : Textual x → TextualItems xs → TextualItems (x :: xs)

/-- Members that are all such values behind such keys. -/
inductive TextualMembers : List (List Char × Json) → Prop
  | nil : TextualMembers []
  | cons {cs key : List Char} {x : Json} {ms : List (List Char × Json)} :
      Spells cs key → Textual x → TextualMembers ms → TextualMembers ((key, x) :: ms)

end

lemma textual_ofText (s : String) : Textual (ofText s) := .string (spells_escape s.toList)

lemma textual_ofTexts (ss : List String) : Textual (ofTexts ss) := by
  refine .array ?_
  induction ss with
  | nil => exact .nil
  | cons s ss ih => exact .cons (textual_ofText s) ih

/-! ### Lexemes of a value -/

mutual

/-- The lexemes of a value. -/
def pieces : Json → List Lexeme
  | .null => [.word "null".toList]
  | .bool true => [.word "true".toList]
  | .bool false => [.word "false".toList]
  | .number written => [.word written]
  | .string written => [.string written]
  | .array xs => .mark '[' :: (itemPieces xs ++ [.mark ']'])
  | .object ms => .mark '\x7b' :: (memberPieces ms ++ [.mark '\x7d'])

/-- The lexemes of items with commas between them. -/
def itemPieces : List Json → List Lexeme
  | [] => []
  | [x] => pieces x
  | x :: y :: xs => pieces x ++ .mark ',' :: itemPieces (y :: xs)

/-- The lexemes of members with commas between them. -/
def memberPieces : List (List Char × Json) → List Lexeme
  | [] => []
  | [(key, x)] => .string key :: .mark ':' :: pieces x
  | (key, x) :: m :: ms =>
    .string key :: .mark ':' :: (pieces x ++ .mark ',' :: memberPieces (m :: ms))

end

section Splitting

variable {seen : List Lexeme} {c : Char} {cs ws acc rest : List Char}

/-- A character that is a lexeme of its own. -/
lemma lexemesFrom_mark (hspace : isSpace c = false) (hmark : isMark c = true) :
    lexemesFrom seen .between (c :: cs) = lexemesFrom (.mark c :: seen) .between cs := by
  simp only [lexemesFrom, hspace, hmark, if_true, Bool.false_eq_true, if_false]

/-- A character of a string that neither ends it nor escapes another one. -/
lemma lexemesFrom_plain (hquote : c ≠ '"') (hslash : c ≠ '\\') (hcontrol : ¬ c.toNat < 32) :
    lexemesFrom seen (.string acc) (c :: cs) = lexemesFrom seen (.string (c :: acc)) cs := by
  rw [lexemesFrom.eq_def]
  split
  case h_6 _ _ hplace heq => cases hplace; cases heq; exact absurd rfl hslash
  case h_7 _ _ _ _ hplace heq =>
    cases hplace
    cases heq
    simp only [hquote, hcontrol, if_false]
  all_goals simp_all

/-- A digit of a code is such a character. -/
lemma lexemesFrom_digit {n : ℕ} (h : n < 16) :
    lexemesFrom seen (.string acc) (Nat.digitChar n :: cs) =
      lexemesFrom seen (.string (Nat.digitChar n :: acc)) cs := by
  have hall : ∀ n < 16, Nat.digitChar n ≠ '"' ∧ Nat.digitChar n ≠ '\\' ∧
      ¬ (Nat.digitChar n).toNat < 32 := by decide
  obtain ⟨hquote, hslash, hcontrol⟩ := hall n h
  exact lexemesFrom_plain hquote hslash hcontrol

/-- A string goes on behind a text as it is written. -/
lemma lexemesFrom_spells (h : Spells cs ws) :
    lexemesFrom seen (.string acc) (ws ++ rest) =
      lexemesFrom seen (.string (ws.reverse ++ acc)) rest := by
  induction h generalizing acc with
  | nil => rfl
  | @cons c w _ ws hchar _ ih =>
    rw [List.append_assoc, List.reverse_append, List.append_assoc, ← ih]
    cases hchar with
    | short => rfl
    | code _ hcontrol hx hy =>
      subst hx hy
      have hfirst : c.toNat / 16 < 16 := by omega
      have hsecond : c.toNat % 16 < 16 := Nat.mod_lt _ (by decide)
      change lexemesFrom seen (.string ('u' :: '\\' :: acc)) (Nat.digitChar 0 :: Nat.digitChar 0 ::
        Nat.digitChar (c.toNat / 16) :: Nat.digitChar (c.toNat % 16) :: (ws ++ rest)) = _
      rw [lexemesFrom_digit (by decide), lexemesFrom_digit (by decide), lexemesFrom_digit hfirst,
        lexemesFrom_digit hsecond]
      rfl
    | plain hlong hcontrol =>
      obtain ⟨hquote, hslash⟩ := ne_of_not_short hlong
      exact lexemesFrom_plain hquote hslash hcontrol

/-- A string between its quotes is one lexeme. -/
lemma lexemesFrom_writeString (h : Spells cs ws) :
    lexemesFrom seen .between (writeString ws ++ rest) =
      lexemesFrom (.string ws :: seen) .between rest := by
  have hin : lexemesFrom seen (.string []) (ws ++ '"' :: rest) =
      lexemesFrom seen (.string ws.reverse) ('"' :: rest) := by
    rw [lexemesFrom_spells h, List.append_nil]
  have hout : lexemesFrom seen (.string ws.reverse) ('"' :: rest) =
      lexemesFrom (.string ws.reverse.reverse :: seen) .between rest := rfl
  rw [List.reverse_reverse] at hout
  rw [writeString, List.cons_append, List.append_assoc]
  exact hin.trans hout

end Splitting

mutual

/-- What is written of a value has its lexemes. -/
theorem lexemesFrom_write {x : Json} (h : Textual x) (seen : List Lexeme) (rest : List Char) :
    lexemesFrom seen .between (write x ++ rest) =
      lexemesFrom ((pieces x).reverse ++ seen) .between rest := by
  cases h with
  | string htext => exact lexemesFrom_writeString htext
  | array hitems =>
    rw [write, pieces, List.cons_append, lexemesFrom_mark (by decide) (by decide),
      List.append_assoc, lexemesFrom_writeItems hitems, List.singleton_append,
      lexemesFrom_mark (by decide) (by decide)]
    simp
  | object hmembers =>
    rw [write, pieces, List.cons_append, lexemesFrom_mark (by decide) (by decide),
      List.append_assoc, lexemesFrom_writeMembers hmembers, List.singleton_append,
      lexemesFrom_mark (by decide) (by decide)]
    simp

theorem lexemesFrom_writeItems {xs : List Json} (h : TextualItems xs) (seen : List Lexeme)
    (rest : List Char) :
    lexemesFrom seen .between (writeItems xs ++ rest) =
      lexemesFrom ((itemPieces xs).reverse ++ seen) .between rest := by
  match xs, h with
  | [], _ => rfl
  | [x], .cons hx _ => exact lexemesFrom_write hx seen rest
  | x :: y :: xs, .cons hx hxs =>
    rw [writeItems, itemPieces, List.append_assoc, lexemesFrom_write hx, List.cons_append,
      lexemesFrom_mark (by decide) (by decide), lexemesFrom_writeItems hxs]
    simp

theorem lexemesFrom_writeMembers {ms : List (List Char × Json)} (h : TextualMembers ms)
    (seen : List Lexeme) (rest : List Char) :
    lexemesFrom seen .between (writeMembers ms ++ rest) =
      lexemesFrom ((memberPieces ms).reverse ++ seen) .between rest := by
  match ms, h with
  | [], _ => rfl
  | [(key, x)], .cons hkey hx _ =>
    rw [writeMembers, memberPieces, List.append_assoc, lexemesFrom_writeString hkey,
      List.cons_append, lexemesFrom_mark (by decide) (by decide), lexemesFrom_write hx]
    simp
  | (key, x) :: m :: ms, .cons hkey hx hms =>
    rw [writeMembers, memberPieces, List.append_assoc, lexemesFrom_writeString hkey,
      List.cons_append, lexemesFrom_mark (by decide) (by decide), List.append_assoc,
      lexemesFrom_write hx, List.cons_append, lexemesFrom_mark (by decide) (by decide),
      lexemesFrom_writeMembers hms]
    simp

end

/-! ### Reading a value -/

lemma pieces_length_pos (x : Json) : 0 < (pieces x).length := by
  cases x with
  | bool b => cases b <;> simp [pieces]
  | _ => simp [pieces]

/-- Items do not begin with a closing bracket. -/
lemma itemPieces_ne {x : Json} {xs : List Json} (h : Textual x) (rest ls : List Lexeme) :
    itemPieces (x :: xs) ++ rest ≠ .mark ']' :: ls := by
  cases xs <;> cases h <;> simp [itemPieces, pieces]

/-- Members do not begin with a closing brace. -/
lemma memberPieces_ne (m : List Char × Json) (ms : List (List Char × Json))
    (rest ls : List Lexeme) : memberPieces (m :: ms) ++ rest ≠ .mark '\x7d' :: ls := by
  cases ms <;> simp [memberPieces]

/-- An opening bracket that is not closed at once. -/
lemma value_open_items {n : ℕ} {ls : List Lexeme} (h : ∀ rest, ls ≠ .mark ']' :: rest) :
    value (n + 1) (.mark '[' :: ls) = (items n ls).map fun p => (.array p.1, p.2) := by
  rw [value]
  exact h

/-- An opening brace that is not closed at once. -/
lemma value_open_members {n : ℕ} {ls : List Lexeme} (h : ∀ rest, ls ≠ .mark '\x7d' :: rest) :
    value (n + 1) (.mark '\x7b' :: ls) = (members n ls).map fun p => (.object p.1, p.2) := by
  rw [value]
  exact h

mutual

/-- The lexemes of a value are read as the value. -/
theorem value_pieces {x : Json} (h : Textual x) {n : ℕ} (hn : (pieces x).length ≤ n)
    (rest : List Lexeme) : value n (pieces x ++ rest) = some (x, rest) := by
  obtain ⟨n, rfl⟩ : ∃ m, n = m + 1 :=
    Nat.exists_eq_add_one.mpr (Nat.lt_of_lt_of_le (pieces_length_pos x) hn)
  cases h with
  | string htext => simp [pieces, value, htext.wellEscaped]
  | @array xs hitems =>
    rw [pieces, List.length_cons, List.length_append, List.length_singleton] at hn
    rw [pieces, List.cons_append, List.append_assoc, List.singleton_append]
    match xs, hitems with
    | [], _ => rfl
    | x :: xs, .cons hx hxs =>
      rw [value_open_items (itemPieces_ne hx _),
        items_pieces (.cons hx hxs) (List.cons_ne_nil x xs) (by omega) rest]
      rfl
  | @object ms hmembers =>
    rw [pieces, List.length_cons, List.length_append, List.length_singleton] at hn
    rw [pieces, List.cons_append, List.append_assoc, List.singleton_append]
    match ms, hmembers with
    | [], _ => rfl
    | m :: ms, hmembers =>
      rw [value_open_members (memberPieces_ne m ms _),
        members_pieces hmembers (List.cons_ne_nil m ms) (by omega) rest]
      rfl

theorem items_pieces {xs : List Json} (h : TextualItems xs) (hne : xs ≠ []) {n : ℕ}
    (hn : (itemPieces xs).length + 1 ≤ n) (rest : List Lexeme) :
    items n (itemPieces xs ++ .mark ']' :: rest) = some (xs, rest) := by
  obtain ⟨n, rfl⟩ : ∃ m, n = m + 1 := Nat.exists_eq_add_one.mpr (by omega)
  match xs, h with
  | [], _ => exact absurd rfl hne
  | [x], .cons hx _ =>
    rw [itemPieces] at hn ⊢
    rw [items, value_pieces hx (by omega)]
    rfl
  | x :: y :: xs, .cons hx hxs =>
    rw [itemPieces] at hn ⊢
    rw [List.length_append, List.length_cons] at hn
    have hpos := pieces_length_pos x
    have hread := items_pieces hxs (List.cons_ne_nil y xs)
      (show (itemPieces (y :: xs)).length + 1 ≤ n by omega) rest
    rw [items, List.append_assoc, value_pieces hx (by omega), List.cons_append]
    simp only [hread, Option.map_some]

theorem members_pieces {ms : List (List Char × Json)} (h : TextualMembers ms) (hne : ms ≠ [])
    {n : ℕ} (hn : (memberPieces ms).length + 1 ≤ n) (rest : List Lexeme) :
    members n (memberPieces ms ++ .mark '\x7d' :: rest) = some (ms, rest) := by
  obtain ⟨n, rfl⟩ : ∃ m, n = m + 1 := Nat.exists_eq_add_one.mpr (by omega)
  match ms, h with
  | [], _ => exact absurd rfl hne
  | [(key, x)], .cons hkey hx _ =>
    rw [memberPieces] at hn ⊢
    simp only [List.length_cons] at hn
    have hvalue := value_pieces hx (show (pieces x).length ≤ n by omega) (.mark '\x7d' :: rest)
    simp [members, hkey.wellEscaped, hvalue]
  | (key, x) :: m :: ms, .cons hkey hx hms =>
    rw [memberPieces] at hn ⊢
    simp only [List.length_cons, List.length_append] at hn
    have hvalue := value_pieces hx (show (pieces x).length ≤ n by omega)
      (.mark ',' :: (memberPieces (m :: ms) ++ .mark '\x7d' :: rest))
    have hread := members_pieces hms (List.cons_ne_nil m ms)
      (show (memberPieces (m :: ms)).length + 1 ≤ n by omega) rest
    simp [members, hkey.wellEscaped, hvalue, hread]

end

/-- A value that holds texts is read back from what is written of it. -/
theorem read?_write {x : Json} (h : Textual x) : read? (write x) = some x := by
  have hlexemes : lexemes? (write x) = some (pieces x) := by
    have hsplit := lexemesFrom_write h [] []
    rw [List.append_nil, List.append_nil] at hsplit
    rw [lexemes?, hsplit, lexemesFrom, List.reverse_reverse]
  have hvalue := value_pieces h (Nat.le_succ (pieces x).length) []
  rw [List.append_nil] at hvalue
  simp [read?, hlexemes, hvalue]

end RubyCheck.Json
