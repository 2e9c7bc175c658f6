import Mathlib.Data.List.Basic
import Mathlib.Tactic.Common

/-!
# TiBackup.Lib.Markup

**Text in HTML.** `escape` writes a text so that no character of it is markup, `decode` reads
character references, and `textContent` is what is left of a piece of HTML without its tags.
Escaped text is read back as it was, wherever it stands (`decode_escape_append`).
-/

namespace TiBackup.Lib.Markup

def escapeChar : Char → List Char
  | '&' => "&amp;".toList
  | '<' => "&lt;".toList
  | '>' => "&gt;".toList
  | c => [c]

/-- A text with references in place of the characters that are markup. -/
def escape (s : List Char) : List Char := s.flatMap escapeChar

/-- The three references are read from left to right, everything else stands for itself. -/
def decode : List Char → List Char
  | '&' :: 'a' :: 'm' :: 'p' :: ';' :: cs => '&' :: decode cs
  | '&' :: 'l' :: 't' :: ';' :: cs => '<' :: decode cs
  | '&' :: 'g' :: 't' :: ';' :: cs => '>' :: decode cs
  | c :: cs => c :: decode cs
  | [] => []

/-- What is outside the tags; a tag goes from `<` to the next `>`. -/
def stripTags : (inTag : Bool) → List Char → List Char
  | _, [] => []
  | true, c :: cs => stripTags (c ≠ '>') cs
  | false, c :: cs => if c = '<' then stripTags true cs else c :: stripTags false cs

/-- The text that a piece of HTML shows. -/
def textContent (html : List Char) : List Char := decode (stripTags false html)

/-- No angle bracket. -/
def NoTags (s : List Char) : Prop := '<' ∉ s ∧ '>' ∉ s

instance (s : List Char) : Decidable (NoTags s) := inferInstanceAs (Decidable (_ ∧ _))

example : textContent "1 &lt; <b>2</b> &amp;lt;".toList = "1 < 2 &lt;".toList := by decide

theorem noTags_append {s t : List Char} : NoTags (s ++ t) ↔ NoTags s ∧ NoTags t := by
  simp only [NoTags, List.mem_append, not_or]
  exact and_and_and_comm

/-! ### Escaped text -/

/-- A character is one of the three, or stands for itself. -/
theorem escapeChar_cases (c : Char) :
    c = '&' ∨ c = '<' ∨ c = '>' ∨ (c ≠ '&' ∧ c ≠ '<' ∧ c ≠ '>' ∧ escapeChar c = [c]) := by
  unfold escapeChar
  split
  · exact .inl rfl
  · exact .inr (.inl rfl)
  · exact .inr (.inr (.inl rfl))
  · next hamp hlt hgt => exact .inr (.inr (.inr ⟨hamp, hlt, hgt, rfl⟩))

theorem noTags_escapeChar (c : Char) : NoTags (escapeChar c) := by
  unfold NoTags
  rcases escapeChar_cases c with rfl | rfl | rfl | ⟨-, hlt, hgt, heq⟩
  · decide
  · decide
  · decide
  · rw [heq, List.mem_singleton, List.mem_singleton]
    exact ⟨hlt.symm, hgt.symm⟩

theorem noTags_escape (s : List Char) : NoTags (escape s) := by
  induction s with
  | nil => decide
  | cons c cs ih =>
    rw [escape, List.flatMap_cons]
    exact noTags_append.mpr ⟨noTags_escapeChar c, ih⟩

theorem decode_cons {c : Char} (h : c ≠ '&') (cs : List Char) : decode (c :: cs) = c :: decode cs := by
  rw [decode]
  all_goals simp_all

/-- The reference of a character is read as the character. -/
theorem decode_escapeChar_append (c : Char) (rest : List Char) :
    decode (escapeChar c ++ rest) = c :: decode rest := by
  rcases escapeChar_cases c with rfl | rfl | rfl | ⟨hamp, -, -, heq⟩
  · rfl
  · rfl
  · rfl
  · rw [heq, List.singleton_append, decode_cons hamp]

/-- **Escaped text is read back**, and what follows it is read on its own. -/
theorem decode_escape_append (s rest : List Char) : decode (escape s ++ rest) = s ++ decode rest := by
  induction s with
  | nil => rfl
  | cons c cs ih =>
    rw [escape, List.flatMap_cons, List.append_assoc, decode_escapeChar_append, ← escape, ih]
    rfl

/-- What is read from left to right reads parts with a separator one by one. -/
theorem read_intercalate {α : Type} {read : List Char → List Char} {write text : α → List Char}
    {sep : List Char} (hnil : read [] = []) (hsep : ∀ rest, read (sep ++ rest) = sep ++ read rest)
    (h : ∀ x rest, read (write x ++ rest) = text x ++ read rest) (xs : List α) :
    read (sep.intercalate (xs.map write)) = sep.intercalate (xs.map text) := by
  induction xs with
  | nil => exact hnil
  | cons x xs ih =>
    cases xs with
    | nil =>
      have hx := h x []
      rw [hnil, List.append_nil, List.append_nil] at hx
      simpa [List.intercalate] using hx
    | cons y ys =>
      rw [List.map_cons, List.map_cons] at ih
      rw [List.map_cons, List.map_cons, List.map_cons, List.map_cons, List.intercalate_cons_cons,
        List.intercalate_cons_cons, List.append_assoc, List.append_assoc, h, hsep, ih]

/-! ### Tags -/

theorem stripTags_append {s : List Char} (h : NoTags s) (rest : List Char) :
    stripTags false (s ++ rest) = s ++ stripTags false rest := by
  induction s with
  | nil => rfl
  | cons c cs ih =>
    obtain ⟨hlt, hgt⟩ := h
    rw [List.mem_cons, not_or] at hlt hgt
    rw [List.cons_append, stripTags, if_neg (Ne.symm hlt.1), ih ⟨hlt.2, hgt.2⟩, List.cons_append]

/-- A tag disappears. -/
theorem stripTags_tag {body : List Char} (h : '>' ∉ body) (rest : List Char) :
    stripTags false ('<' :: body ++ '>' :: rest) = stripTags false rest := by
  rw [List.cons_append, stripTags, if_pos rfl]
  induction body with
  | nil => rfl
  | cons c cs ih =>
    rw [List.mem_cons, not_or] at h
    rw [List.cons_append, stripTags, decide_eq_true (Ne.symm h.1), ih h.2]

end TiBackup.Lib.Markup
