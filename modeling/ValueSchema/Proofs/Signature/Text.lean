import ValueSchema.Proofs.Signature.Rules

/-! # Texts that are told apart inside longer ones

A text is read off the front of what follows, up to the comma or the parenthesis that ends it. -/

namespace ValueSchema

/-- The punctuation of signatures. -/
def delimiters : List Char := ['(', ')', ',', ':', '*', '!']

def Undelimited (text : List Char) : Prop := ∀ c ∈ text, c ∉ delimiters

/-- What follows is nothing or begins with punctuation. -/
def StartsDelimited (rest : List Char) : Prop := ∀ c ∈ rest.head?, c ∈ delimiters

/-- What follows is nothing, or it begins with the end of an item. -/
def EndsItem (rest : List Char) : Prop := ∀ c ∈ rest.head?, c = ',' ∨ c = ')'

/-- A text that is not mistaken for the end of an empty list. -/
def OpensItem (text : String) : Prop := ∃ c rest, text.toList = c :: rest ∧ c ≠ ')'

/-- Two texts, each followed by the end of an item, are the same to a reader only in a certain
case, and then the same follows. -/
def Unambiguous (text text' : String) (same : Prop) : Prop :=
  ∀ rest rest' : List Char, EndsItem rest → EndsItem rest' →
    text.toList ++ rest = text'.toList ++ rest' → same ∧ rest = rest'

theorem EndsItem.startsDelimited {rest : List Char} (h : EndsItem rest) :
    StartsDelimited rest := by
  intro c hc
  rcases h c hc with rfl | rfl <;> decide

theorem EndsItem.ne_cons {rest tail : List Char} {c : Char} (h : EndsItem rest)
    (hcomma : c ≠ ',') (hparen : c ≠ ')') : rest ≠ c :: tail := by
  rintro rfl
  rcases h c rfl with hc | hc
  · exact hcomma hc
  · exact hparen hc

theorem endsItem_nil : EndsItem [] := by
  simp [EndsItem]

theorem Unambiguous.same {text : String} {same : Prop} (h : Unambiguous text text same) : same :=
  (h [] [] endsItem_nil endsItem_nil rfl).1

theorem Unambiguous.imp {text text' : String} {same same' : Prop}
    (h : Unambiguous text text' same) (himp : same → same') : Unambiguous text text' same' :=
  fun rest rest' hrest hrest' heq => (h rest rest' hrest hrest' heq).imp_left himp

/-- Text without punctuation is read up to the first punctuation. -/
theorem Undelimited.eq_of_append_eq {text text' rest rest' : List Char}
    (htext : Undelimited text) (htext' : Undelimited text') (hrest : StartsDelimited rest)
    (hrest' : StartsDelimited rest') (h : text ++ rest = text' ++ rest') :
    text = text' ∧ rest = rest' := by
  induction text generalizing text' with
  | nil =>
      cases text' with
      | nil => exact ⟨rfl, h⟩
      | cons c text' =>
          have hc : c ∈ delimiters := hrest c (by rw [List.nil_append] at h; rw [h]; rfl)
          exact absurd hc (htext' c (List.mem_cons_self ..))
  | cons c text ih =>
      cases text' with
      | nil =>
          have hc : c ∈ delimiters := hrest' c (by rw [List.nil_append] at h; rw [← h]; rfl)
          exact absurd hc (htext c (List.mem_cons_self ..))
      | cons c' text' =>
          rw [List.cons_append, List.cons_append, List.cons.injEq] at h
          have hrec := ih (fun c hc => htext c (List.mem_cons_of_mem _ hc))
            (fun c hc => htext' c (List.mem_cons_of_mem _ hc)) h.2
          exact ⟨by rw [h.1, hrec.1], hrec.2⟩

/-! ## Lists in parentheses -/

/-- The items of a list from the second one on, up to the closing parenthesis and beyond. -/
def restOfItems : List String → List Char → List Char
  | [], rest => ')' :: rest
  | text :: texts, rest => ',' :: ' ' :: (text.toList ++ restOfItems texts rest)

theorem endsItem_restOfItems (texts : List String) (rest : List Char) :
    EndsItem (restOfItems texts rest) := by
  cases texts <;> simp [restOfItems, EndsItem]

theorem toList_enclosed_nil (rest : List Char) :
    (enclosed []).toList ++ rest = '(' :: restOfItems [] rest := by
  simp [enclosed, restOfItems]

theorem toList_enclosed_cons (text : String) (texts : List String) (rest : List Char) :
    (enclosed (text :: texts)).toList ++ rest =
      '(' :: (text.toList ++ restOfItems texts rest) := by
  have hitems : ", ".toList.intercalate ((text :: texts).map String.toList) ++ ')' :: rest =
      text.toList ++ restOfItems texts rest := by
    induction texts generalizing text with
    | nil => simp [restOfItems]
    | cons next texts ih =>
        rw [List.map_cons, List.map_cons, List.intercalate_cons_cons, List.append_assoc,
          List.append_assoc, ← List.map_cons, ih, restOfItems]
        simp
  simp only [enclosed, String.toList_append, String.toList_intercalate, ← hitems]
  simp

section Items

variable {α β : Type} {has : α → String → Prop} {has' : β → String → Prop} {same : α → β → Prop}
  (hitem : ∀ x text y text', has x text → has' y text' → Unambiguous text text' (same x y))

include hitem

theorem forall₂_of_restOfItems {xs : List α} {ys : List β} {texts texts' : List String}
    {rest rest' : List Char} (hxs : List.Forall₂ has xs texts)
    (hys : List.Forall₂ has' ys texts') (h : restOfItems texts rest = restOfItems texts' rest') :
    List.Forall₂ same xs ys ∧ rest = rest' := by
  induction hxs generalizing ys texts' with
  | nil =>
      cases hys with
      | nil => exact ⟨.nil, by simpa [restOfItems] using h⟩
      | cons => simp [restOfItems] at h
  | cons hx _ ih =>
      cases hys with
      | nil => simp [restOfItems] at h
      | cons hy hys =>
          simp only [restOfItems, List.cons.injEq, true_and] at h
          have hhead := hitem _ _ _ _ hx hy _ _ (endsItem_restOfItems _ _)
            (endsItem_restOfItems _ _) h
          have htail := ih hys hhead.2
          exact ⟨.cons hhead.1 htail.1, htail.2⟩

/-- Lists of unambiguous items have as many items when they are mistaken for each other, and each
item for the one at its place. -/
theorem forall₂_of_enclosed {xs : List α} {ys : List β} {texts texts' : List String}
    {rest rest' : List Char} (hxs : List.Forall₂ has xs texts)
    (hys : List.Forall₂ has' ys texts')
    (hopen : ∀ x text, has x text → OpensItem text)
    (hopen' : ∀ y text, has' y text → OpensItem text)
    (h : (enclosed texts).toList ++ rest = (enclosed texts').toList ++ rest') :
    List.Forall₂ same xs ys ∧ rest = rest' := by
  cases hxs with
  | nil =>
      cases hys with
      | nil => exact ⟨.nil, by simpa [enclosed] using h⟩
      | cons hy hys =>
          obtain ⟨c, front, htext, hne⟩ := hopen' _ _ hy
          rw [toList_enclosed_nil, toList_enclosed_cons, htext, List.cons.injEq] at h
          exact absurd (List.cons.inj h.2).1.symm hne
  | cons hx hxs =>
      cases hys with
      | nil =>
          obtain ⟨c, front, htext, hne⟩ := hopen _ _ hx
          rw [toList_enclosed_nil, toList_enclosed_cons, htext, List.cons.injEq] at h
          exact absurd (List.cons.inj h.2).1 hne
      | cons hy hys =>
          rw [toList_enclosed_cons, toList_enclosed_cons, List.cons.injEq] at h
          have hhead := hitem _ _ _ _ hx hy _ _ (endsItem_restOfItems _ _)
            (endsItem_restOfItems _ _) h.2
          have htail := forall₂_of_restOfItems hitem hxs hys hhead.2
          exact ⟨.cons hhead.1 htail.1, htail.2⟩

end Items

/-! ## Options -/

namespace Json

/-- Literals that are written without quotes. -/
inductive IsBare : Json → Prop
  | null : IsBare .null
  | bool (flag : Bool) : IsBare (.bool flag)
  | integer (value : Int) (range : Has64Bits value) : IsBare (.number (.integer value range))

/-- Strings, truth values, `null` and integers. -/
inductive IsLiteral : Json → Prop
  | bare {value : Json} (h : IsBare value) : IsLiteral value
  | string (s : String) : IsLiteral (.string s)

/-! ### Strings -/

/-- The characters with an escape of one letter. -/
def shortEscapes : List (Char × Char) :=
  [('"', '"'), ('\\', '\\'), ('\x08', 'b'), ('\t', 't'), ('\n', 'n'), ('\x0c', 'f'), ('\r', 'r')]

/-- How a character is written inside quotes. -/
inductive Escapes : Char → List Char → Prop
  | self {c : Char} (quote : c ≠ '"') (backslash : c ≠ '\\') : Escapes c [c]
  | short {c letter : Char} (h : (c, letter) ∈ shortEscapes) : Escapes c ['\\', letter]
  | hex {c : Char} (h : c.toNat < 32) :
      Escapes c ['\\', 'u', '0', '0', Nat.digitChar (c.toNat / 16), Nat.digitChar (c.toNat % 16)]

theorem escapes_escapeChar (c : Char) : Escapes c (escapeChar c) := by
  unfold escapeChar
  split
  case h_8 =>
    split
    · next h => exact .hex h
    · exact .self (by assumption) (by assumption)
  all_goals exact .short (by simp [shortEscapes])

/-- A control character is determined by its two digits. -/
theorem eq_of_digitChar_eq {c c' : Char} (hc : c.toNat < 32) (hc' : c'.toNat < 32)
    (high : Nat.digitChar (c.toNat / 16) = Nat.digitChar (c'.toNat / 16))
    (low : Nat.digitChar (c.toNat % 16) = Nat.digitChar (c'.toNat % 16)) : c = c' := by
  have hdigits : ∀ m < 16, ∀ n < 16, Nat.digitChar m = Nat.digitChar n → m = n := by decide
  have hhigh := hdigits _ (by omega) _ (by omega) high
  have hlow := hdigits _ (by omega) _ (by omega) low
  exact Char.toNat_inj.mp (by omega)

/-- Escaped characters are read one after the other. -/
theorem Escapes.eq_of_append_eq {c c' : Char} {text text' rest rest' : List Char}
    (h : Escapes c text) (h' : Escapes c' text') (heq : text ++ rest = text' ++ rest') :
    c = c' ∧ rest = rest' := by
  have hshort : ∀ pair ∈ shortEscapes, ∀ pair' ∈ shortEscapes, pair.2 = pair'.2 →
      pair.1 = pair'.1 := by decide
  have hletter : ∀ pair ∈ shortEscapes, pair.2 ≠ 'u' := by decide
  cases h with
  | self quote backslash =>
      cases h' with
      | self => simpa using heq
      | short | hex => simp [backslash] at heq
  | short hcode =>
      cases h' with
      | self quote backslash => simp [Ne.symm backslash] at heq
      | short hcode' =>
          simp only [List.cons_append, List.nil_append, List.cons.injEq, true_and] at heq
          exact ⟨hshort _ hcode _ hcode' heq.1, heq.2⟩
      | hex => simp [hletter _ hcode] at heq
  | hex hc =>
      cases h' with
      | self quote backslash => simp [Ne.symm backslash] at heq
      | short hcode' => simp [Ne.symm (hletter _ hcode')] at heq
      | hex hc' =>
          simp only [List.cons_append, List.nil_append, List.cons.injEq, true_and] at heq
          exact ⟨eq_of_digitChar_eq hc hc' heq.1 heq.2.1, heq.2.2⟩

/-- No escape begins with the quote that ends a string. -/
theorem Escapes.ne_quote {c : Char} {text rest rest' : List Char} (h : Escapes c text) :
    text ++ rest ≠ '"' :: rest' := by
  cases h with
  | self quote backslash => simp [quote]
  | short | hex => simp

theorem flatMap_escapeChar_inj {s t rest rest' : List Char}
    (h : s.flatMap escapeChar ++ '"' :: rest = t.flatMap escapeChar ++ '"' :: rest') :
    s = t ∧ rest = rest' := by
  induction s generalizing t with
  | nil =>
      cases t with
      | nil => simpa using h
      | cons c t =>
          rw [List.flatMap_cons, List.append_assoc] at h
          exact absurd h.symm (escapes_escapeChar c).ne_quote
  | cons c s ih =>
      cases t with
      | nil =>
          rw [List.flatMap_cons, List.append_assoc] at h
          exact absurd h (escapes_escapeChar c).ne_quote
      | cons c' t =>
          rw [List.flatMap_cons, List.flatMap_cons, List.append_assoc, List.append_assoc] at h
          have hhead := (escapes_escapeChar c).eq_of_append_eq (escapes_escapeChar c') h
          have htail := ih hhead.2
          exact ⟨by rw [hhead.1, htail.1], htail.2⟩

theorem toList_quote (s : String) (rest : List Char) :
    (quote s).toList ++ rest = '"' :: (s.toList.flatMap escapeChar ++ '"' :: rest) := by
  simp [quote]

/-! ### Words and numbers -/

theorem isDigit_of_mem_toList_repr {n : Nat} {c : Char} (h : c ∈ (Nat.repr n).toList) :
    c.isDigit = true := by
  rw [Nat.toList_repr] at h
  exact Nat.isDigit_of_mem_toDigits (by decide) (by decide) h

theorem mem_toList_repr {value : Int} {c : Char} (h : c ∈ (Int.repr value).toList) :
    c = '-' ∨ c.isDigit = true := by
  rw [Int.repr_eq_if] at h
  split at h
  · exact .inr (isDigit_of_mem_toList_repr h)
  · rw [String.toList_append, List.mem_append] at h
    rcases h with hsign | hnumber
    · exact .inl (by simpa using hsign)
    · exact .inr (isDigit_of_mem_toList_repr hnumber)

/-- The text of a number shows which one it is. -/
theorem eq_of_repr_eq {value value' : Int} (h : Int.repr value = Int.repr value') :
    value = value' := by
  have hdigits : ∀ n n' : Nat, Nat.repr n = Nat.repr n' → n = n' := by
    intro n n' hn
    have hread := congrArg (fun text => Nat.ofDigitChars 10 text.toList 0) hn
    simpa only [Nat.toList_repr, Nat.ofDigitChars_ten_toDigits] using hread
  have hsign : ∀ n n' : Nat, Nat.repr n ≠ "-" ++ Nat.repr n' := by
    intro n n' hn
    have hdash : '-' ∈ (Nat.repr n).toList := by simp [hn]
    exact absurd (isDigit_of_mem_toList_repr hdash) (by decide)
  rw [Int.repr_eq_if, Int.repr_eq_if] at h
  split at h <;> split at h
  · have hnat := hdigits _ _ h
    omega
  · exact absurd h (hsign _ _)
  · exact absurd h.symm (hsign _ _)
  · have hnat := hdigits _ _ ((String.append_right_inj "-").mp h)
    omega

theorem repr_ne_empty (value : Int) : Int.repr value ≠ "" := by
  rw [Int.repr_eq_if]
  split
  · exact Nat.repr_ne_empty
  · simp

/-- A word with a letter that is no digit is not the text of a number. -/
theorem repr_ne_of_mem {word : String} {c : Char} (hc : c ∈ word.toList) (hdash : c ≠ '-')
    (hdigit : c.isDigit = false) (value : Int) : Int.repr value ≠ word := by
  rintro rfl
  rcases mem_toList_repr hc with h | h
  · exact hdash h
  · simp [hdigit] at h

theorem text_bool (flag : Bool) : (Json.bool flag).text = if flag then "true" else "false" := by
  cases flag <;> rfl

namespace IsBare

variable {value value' : Json}

theorem mem_text (h : value.IsBare) {c : Char} (hc : c ∈ value.text.toList) :
    c = '-' ∨ c.isAlphanum = true := by
  have hwords : ∀ word ∈ ["null", "true", "false"], ∀ c ∈ word.toList, c.isAlphanum = true := by
    simp
  cases h with
  | null => exact .inr (hwords "null" (by simp) c hc)
  | bool flag =>
      cases flag with
      | true => exact .inr (hwords "true" (by simp) c hc)
      | false => exact .inr (hwords "false" (by simp) c hc)
  | integer value range =>
      refine (mem_toList_repr hc).imp_right fun hdigit => ?_
      rw [Char.isAlphanum, hdigit, Bool.or_true]

theorem text_ne_empty (h : value.IsBare) : value.text ≠ "" := by
  cases h with
  | null => simp [text, leafText]
  | bool flag => cases flag <;> simp [text_bool]
  | integer value range => exact repr_ne_empty value

theorem undelimited_text (h : value.IsBare) : Undelimited value.text.toList := by
  have hdelimiters : ∀ c ∈ delimiters, c ≠ '-' ∧ c.isAlphanum = false := by simp [delimiters]
  intro c hc hmem
  rcases h.mem_text hc with hdash | halpha
  · exact (hdelimiters c hmem).1 hdash
  · simp [(hdelimiters c hmem).2] at halpha

theorem exists_toList_text (h : value.IsBare) :
    ∃ c rest, value.text.toList = c :: rest ∧ c ≠ ')' ∧ c ≠ '"' := by
  cases htext : value.text.toList with
  | nil => exact absurd (String.toList_eq_nil_iff.mp htext) h.text_ne_empty
  | cons c rest =>
      refine ⟨c, rest, rfl, ?_, ?_⟩
      all_goals
        rintro rfl
        have hmem := h.mem_text (htext ▸ List.mem_cons_self ..)
        simp at hmem

theorem eq_of_text_eq (h : value.IsBare) (h' : value'.IsBare) (heq : value.text = value'.text) :
    value = value' := by
  have hnull : ∀ number : Int, Int.repr number ≠ "null" := by
    apply repr_ne_of_mem (c := 'l') <;> simp
  have hbool : ∀ (flag : Bool) (number : Int), Int.repr number ≠ (Json.bool flag).text := by
    intro flag
    cases flag <;> apply repr_ne_of_mem (c := 'e') <;> simp [text_bool]
  cases h with
  | null =>
      cases h' with
      | null => rfl
      | bool flag => cases flag <;> simp [text, leafText] at heq
      | integer number range => exact absurd heq.symm (hnull number)
  | bool flag =>
      cases h' with
      | null => cases flag <;> simp [text, leafText] at heq
      | bool flag' => cases flag <;> cases flag' <;> simp_all [text, leafText]
      | integer number range => exact absurd heq.symm (hbool flag number)
  | integer number range =>
      cases h' with
      | null => exact absurd heq (hnull number)
      | bool flag => exact absurd heq (hbool flag number)
      | integer number' range' =>
          obtain rfl : number = number' := eq_of_repr_eq heq
          rfl

end IsBare

/-! ### Literals -/

theorem IsLiteral.opensItem_text {value : Json} (h : value.IsLiteral) : OpensItem value.text := by
  cases h with
  | bare h =>
      obtain ⟨c, rest, htext, hne, -⟩ := h.exists_toList_text
      exact ⟨c, rest, htext, hne⟩
  | string s => exact ⟨'"', _, String.toList_ofList, by simp⟩

/-- The text of a literal shows which one it is. -/
theorem IsLiteral.unambiguous_text {value value' : Json} (h : value.IsLiteral)
    (h' : value'.IsLiteral) : Unambiguous value.text value'.text (value = value') := by
  intro rest rest' hrest hrest' heq
  cases h with
  | bare h =>
      cases h' with
      | bare h' =>
          have htexts := h.undelimited_text.eq_of_append_eq h'.undelimited_text
            hrest.startsDelimited hrest'.startsDelimited heq
          exact ⟨h.eq_of_text_eq h' (String.toList_injective htexts.1), htexts.2⟩
      | string s =>
          obtain ⟨c, front, htext, -, hne⟩ := h.exists_toList_text
          rw [htext] at heq
          exact absurd (List.cons.inj (heq.trans (toList_quote s rest'))).1 hne
  | string s =>
      cases h' with
      | bare h' =>
          obtain ⟨c, front, htext, -, hne⟩ := h'.exists_toList_text
          rw [htext] at heq
          exact absurd (List.cons.inj (heq.symm.trans (toList_quote s rest))).1 hne
      | string s' =>
          have hquotes : (quote s).toList ++ rest = (quote s').toList ++ rest' := heq
          rw [toList_quote, toList_quote, List.cons.injEq] at hquotes
          have hinner := flatMap_escapeChar_inj hquotes.2
          exact ⟨by rw [String.toList_injective hinner.1], hinner.2⟩

end Json

end ValueSchema
