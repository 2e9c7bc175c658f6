import TiBackup.Lib.Markup
import TiBackup.Model.LogPage

/-!
# TiBackup.Logs.View

**The coloured log shows the text of the log.** The page puts `visibleLogHtml` in the document
as it is, and the lines come from anywhere. Every line is escaped before its first mark is
put in a span, so the tags of the spans are the only ones, and without them, read as HTML, the
lines are those of `visibleLog` (`visibleLogHtml_exact`).
-/

namespace TiBackup

open Lib Lib.Markup

/-! ### Escaping -/

/-- The three passes together replace each character by its reference. -/
theorem esc_eq_escape (s : List Char) : esc s = escape s := by
  simp only [esc, show "&".toList = ['&'] from rfl, show "<".toList = ['<'] from rfl,
    show ">".toList = ['>'] from rfl, replaceAll_singleton, List.flatMap_assoc, escape]
  refine congrArg (List.flatMap · s) (funext fun c => ?_)
  rcases escapeChar_cases c with rfl | rfl | rfl | ⟨hamp, hlt, hgt, heq⟩
  · rfl
  · rfl
  · rfl
  · rw [heq]
    simp [hamp, hlt, hgt]

/-! ### Spans -/

/-- The name of a level in `LOG_LEVELS`. -/
def LogLevel.name : LogLevel → String
  | .debug => "debug"
  | .info => "info"
  | .warn => "warn"
  | .error => "error"
  | .crit => "crit"

/-- The start tag of the spans for a level. -/
def spanTag (l : LogLevel) : String := "<span class=\"lvl lvl-" ++ l.name ++ "\">"

/-- A line without tags, or with one span, which is around a mark of its level. -/
inductive ColouredLine : String → Prop
  | plain {s : String} : NoTags s.toList → ColouredLine s
  | span {front rest mark : String} {l : LogLevel} : (mark, l) ∈ levelMarks →
      NoTags front.toList → NoTags rest.toList →
        ColouredLine (front ++ spanTag l ++ mark ++ "</span>" ++ rest)

theorem levelTagOf_eq {p : String × LogLevel} (hp : p ∈ levelMarks) :
    levelTagOf p.1.toList = (spanTag p.2).toList := by
  revert p
  decide

/-- The start tag is one tag. -/
theorem stripTags_spanTag (l : LogLevel) (rest : List Char) :
    stripTags false ((spanTag l).toList ++ rest) = stripTags false rest := by
  have htag : ∃ body, '>' ∉ body ∧ (spanTag l).toList = '<' :: body ++ ['>'] := by
    refine ⟨("span class=\"lvl lvl-" ++ l.name ++ "\"").toList, ?_, ?_⟩
    · cases l <;> decide
    · cases l <;> decide
  obtain ⟨body, hbody, heq⟩ := htag
  rw [heq, List.append_assoc, List.singleton_append, stripTags_tag hbody]

theorem coloured_colour {s : List Char} (h : NoTags s) :
    ColouredLine (String.ofList (colour s)) := by
  rw [colour]
  split
  · exact .plain (by rwa [String.toList_ofList])
  · next front m rest hfind =>
    obtain ⟨hfirst, rfl⟩ := findMark_eq_some hfind
    obtain ⟨p, hp, rfl⟩ := List.mem_map.mp hfirst.mem
    obtain ⟨hfront, -, hrest⟩ : NoTags front ∧ NoTags p.1.toList ∧ NoTags rest := by
      rwa [noTags_append, noTags_append] at h
    rw [← String.toList_ofList (l := front)] at hfront
    rw [← String.toList_ofList (l := rest)] at hrest
    have hline : String.ofList (front ++ (levelTagOf p.1.toList ++ p.1.toList ++ "</span>".toList) ++
        rest) = String.ofList front ++ spanTag p.2 ++ p.1 ++ "</span>" ++ String.ofList rest := by
      refine String.toList_injective ?_
      rw [levelTagOf_eq hp]
      simp
    rw [hline]
    exact .span hp hfront hrest

/-- Without the tags of the span the line is as it was. -/
theorem stripTags_colour_append {s : List Char} (h : NoTags s) (rest : List Char) :
    stripTags false (colour s ++ rest) = s ++ stripTags false rest := by
  rw [colour]
  split
  · exact stripTags_append h rest
  · next front m behind hfind =>
    obtain ⟨hfirst, rfl⟩ := findMark_eq_some hfind
    obtain ⟨p, hp, rfl⟩ := List.mem_map.mp hfirst.mem
    obtain ⟨hfront, hmark, hbehind⟩ : NoTags front ∧ NoTags p.1.toList ∧ NoTags behind := by
      rwa [noTags_append, noTags_append] at h
    have hend : ∀ rest, stripTags false ("</span>".toList ++ rest) = stripTags false rest :=
      stripTags_tag (by decide : '>' ∉ "/span".toList)
    rw [levelTagOf_eq hp]
    simp only [List.append_assoc]
    rw [stripTags_append hfront, stripTags_spanTag, stripTags_append hmark, hend,
      stripTags_append hbehind]

/-! ### The whole log -/

/-- The text of the lines in the document is that of the lines. -/
theorem textContent_lines (lines : List (List Char)) :
    textContent (['\n'].intercalate (lines.map fun line => colour (esc line))) =
      ['\n'].intercalate lines := by
  have hstrip : stripTags false (['\n'].intercalate (lines.map fun line => colour (esc line))) =
      ['\n'].intercalate (lines.map escape) := by
    refine read_intercalate rfl (stripTags_append (by decide)) ?_ lines
    intro line rest
    rw [esc_eq_escape, stripTags_colour_append (noTags_escape line)]
  have hdecode : decode (['\n'].intercalate (lines.map escape)) =
      ['\n'].intercalate (lines.map id) :=
    read_intercalate rfl (fun _ => decode_cons (by decide) _) decode_escape_append lines
  rw [textContent, hstrip, hdecode, List.map_id]

/-- **The view shows the log as it is.** The only tags in it are those of the spans, one at
most in each line and around a mark of the level it names, and the text of it is the log. -/
theorem visibleLogHtml_exact (logLevel : LogLevel) (logLines : List LogLine) :
    (∃ html : List String, visibleLogHtml logLevel logLines = "\n".intercalate html ∧
      html.length = (logLines.filter (shows logLevel)).length ∧ ∀ line ∈ html, ColouredLine line) ∧
    textContent (visibleLogHtml logLevel logLines).toList =
      (visibleLog logLevel logLines).toList := by
  refine ⟨⟨_, rfl, List.length_map .., ?_⟩, ?_⟩
  · intro line hline
    obtain ⟨l, -, rfl⟩ := List.mem_map.mp hline
    rw [esc_eq_escape]
    exact coloured_colour (noTags_escape _)
  · have htext := textContent_lines ((logLines.filter (shows logLevel)).map fun l => l.text.toList)
    rw [visibleLogHtml, visibleLog, String.toList_intercalate, String.toList_intercalate]
    simpa [List.map_map, Function.comp_def] using htext

end TiBackup
