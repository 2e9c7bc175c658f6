import TiBackup.Lib.Encoding

/-!
# TiBackup.Model.Validate

The name checks of `webserver/apirouter.cpp`: which strings may become a job name,
a PBS backup id or the file name of a server record.

The three regular expressions are matched by PCRE2 without `DOLLAR_ENDONLY`, where
`$` matches at the very end of the text and also right before a final line break.
`matchEnd` is that `$`.
-/

namespace TiBackup

open Lib

/-- `[A-Za-z0-9._-]`. -/
def isNameChar (c : Char) : Bool :=
  ('A' ≤ c && c ≤ 'Z') || ('a' ≤ c && c ≤ 'z') || ('0' ≤ c && c ≤ '9') ||
    c = '.' || c = '_' || c = '-'

/-- `[0-9a-fA-F-]`. -/
def isUuidChar (c : Char) : Bool :=
  ('0' ≤ c && c ≤ '9') || ('a' ≤ c && c ≤ 'f') || ('A' ≤ c && c ≤ 'F') || c = '-'

/-- What is left of the text where `$` matches: all of it, or all but a final line
break. -/
def matchEnd (cs : List Char) (body : List Char → Bool) : Bool :=
  body cs || (cs.getLast? = some '\n' && body cs.dropLast)

/-- `C+` for a character class `C`. -/
def oneOrMore (p : Char → Bool) (cs : List Char) : Bool := !cs.isEmpty && cs.all p

/-- `C{lo,hi}` for a character class `C`. -/
def between (lo hi : Nat) (p : Char → Bool) (cs : List Char) : Bool :=
  lo ≤ cs.length && cs.length ≤ hi && cs.all p

/-- `validIdentifier`: `^[A-Za-z0-9._-]+$`, at most 128 units, not `.` or `..`. -/
def validIdentifier (s : String) : Bool :=
  if s.isEmpty || utf16Length s > 128 then false
  else if !matchEnd s.toList (oneOrMore isNameChar) then false
  else s ≠ "." && s ≠ ".."

/-- The types of PBS backup ids. -/
def pbsTypes : List (List Char) := ["vm/".toList, "ct/".toList, "host/".toList]

/-- `validPbsBackupId`: `^(vm|ct|host)/[A-Za-z0-9._-]+$`. -/
def validPbsBackupId (s : String) : Bool :=
  matchEnd s.toList fun cs =>
    pbsTypes.any fun t => t.isPrefixOf cs && oneOrMore isNameChar (cs.drop t.length)

/-- `validUuid`: `^[0-9a-fA-F-]{8,64}$`. -/
def validUuid (s : String) : Bool := matchEnd s.toList (between 8 64 isUuidChar)

/-- `$` matches the whole text, or all of it but a final line break. -/
theorem matchEnd_iff {cs : List Char} {body : List Char → Bool} :
    matchEnd cs body = true ↔ body cs = true ∨ ∃ ds, cs = ds ++ ['\n'] ∧ body ds = true := by
  rw [matchEnd, Bool.or_eq_true, Bool.and_eq_true, decide_eq_true_eq]
  refine or_congr_right ?_
  constructor
  · rintro ⟨hlast, hbody⟩
    obtain ⟨ds, rfl⟩ := List.getLast?_eq_some_iff.mp hlast
    rw [List.dropLast_concat] at hbody
    exact ⟨ds, rfl, hbody⟩
  · rintro ⟨ds, rfl, hbody⟩
    exact ⟨List.getLast?_concat, by rwa [List.dropLast_concat]⟩

theorem oneOrMore_iff {p : Char → Bool} {cs : List Char} :
    oneOrMore p cs = true ↔ cs ≠ [] ∧ ∀ c ∈ cs, p c = true := by
  rw [oneOrMore, Bool.and_eq_true, List.all_eq_true, Bool.not_eq_true', List.isEmpty_eq_false_iff]

/-- A text of one or more characters of a class, as `$` sees it: besides them there may be
a final line break. -/
theorem chars_of_matchEnd {p : Char → Bool} {cs : List Char}
    (h : matchEnd cs (oneOrMore p) = true) : cs ≠ [] ∧ ∀ c ∈ cs, p c = true ∨ c = '\n' := by
  rcases matchEnd_iff.mp h with hbody | ⟨ds, rfl, hbody⟩
  · obtain ⟨hne, hchars⟩ := oneOrMore_iff.mp hbody
    exact ⟨hne, fun c hc => .inl (hchars c hc)⟩
  · obtain ⟨-, hchars⟩ := oneOrMore_iff.mp hbody
    refine ⟨by simp, ?_⟩
    intro c hc
    rcases List.mem_append.mp hc with hc | hc
    · exact .inl (hchars c hc)
    · exact .inr (List.mem_singleton.mp hc)

/-- A name that is accepted has name characters only, and perhaps a final line break. -/
theorem chars_of_validIdentifier {s : String} (h : validIdentifier s = true) :
    ∀ c ∈ s.toList, isNameChar c = true ∨ c = '\n' := by
  rw [validIdentifier] at h
  split at h
  · cases h
  · split at h
    · cases h
    · next hmatch =>
      rw [Bool.not_eq_true', Bool.not_eq_false] at hmatch
      exact (chars_of_matchEnd hmatch).2

example : validPbsBackupId "vm/1.2_3-4" = true := by decide
example : validPbsBackupId "host/a/b" = false := by decide

end TiBackup
