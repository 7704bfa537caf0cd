import Docweave.Path.Select
import Docweave.Proofs.Path.Bracketed
import Docweave.Proofs.Path.Segments
import Docweave.Proofs.Text.Lines

set_option autoImplicit false

/-! # One slash at the end of a path

Reading ignores one slash at the end of a path. Where there is a path with such a slash, there is one
without it, and it has the same steps (`ElementPath.steps?_withoutSlash`). The other direction fails: a
slash behind blanks or behind another slash is taken away in front of what is a path, and makes none. -/

namespace Docweave

open Docweave.Text

/-! ## What a path ends with -/

/-- The character can be the last one of a step. -/
def EndsStep (c : Char) : Prop := c = '*' ∨ c = '.' ∨ c = ']' ∨ isPathNameChar c = true

theorem EndsStep.isBlank {c : Char} (h : EndsStep c) : isBlank c = false := by
  rcases h with rfl | rfl | rfl | h
  · decide
  · decide
  · decide
  · exact isBlank_of_isPathNameChar h

theorem EndsStep.ne_slash {c : Char} (h : EndsStep c) : c ≠ '/' := by
  rintro rfl
  rcases h with h | h | h | h
  all_goals cases h

/-- Predicates end with a closing bracket. -/
theorem getLast?_of_readPredicates {text : String} {s : List Char} {predicates : List Predicate}
    (h : readPredicates text s = .ok predicates) (hne : s ≠ []) : s.getLast? = some ']' := by
  replace h := inBrackets_of_readPredicates h
  induction h with
  | nil => exact absurd rfl hne
  | @cons rest inner after predicate later hclose _ _ ih =>
    rw [(closedAfter_of_splitAtClose? hclose).1]
    by_cases hafter : after = []
    · subst hafter
      rw [← List.cons_append, List.getLast?_concat]
    · rw [List.append_cons, ← List.cons_append, List.getLast?_append_of_ne_nil _ hafter]
      exact ih hafter

theorem exists_endsStep_of_readStep {text : String} {below : Bool} {segment : List Char} {step : Step}
    (h : readStep text below segment = .ok step) : ∃ c, segment.getLast? = some c ∧ EndsStep c := by
  obtain ⟨predicates, hpredicates, hname⟩ := readStep_eq_ok_iff.1 h
  have hname : ∃ c, (segment.takeWhile (· != '[')).getLast? = some c ∧ EndsStep c := by
    rcases hname with ⟨hself, -, -⟩ | ⟨test, htest, -⟩
    · exact ⟨'.', by rw [hself]; rfl, .inr (.inl rfl)⟩
    · obtain ⟨rest, c, hrest, hc⟩ := htest.exists_concat
      refine ⟨c, by rw [hrest, List.getLast?_concat], ?_⟩
      rcases hc with hc | hc
      · exact .inl hc
      · exact .inr (.inr (.inr hc))
  rw [← List.takeWhile_append_dropWhile (p := (· != '[')) (l := segment)]
  by_cases hnil : segment.dropWhile (· != '[') = []
  · rw [hnil, List.append_nil]
    exact hname
  · rw [List.getLast?_append_of_ne_nil _ hnil]
    exact ⟨']', getLast?_of_readPredicates hpredicates hnil, .inr (.inr (.inl rfl))⟩

theorem exists_endsStep_of_readSteps {text : String} {below : Bool} {segments : List (List Char)}
    {steps : List Step} (h : readSteps text below segments = .ok steps) (hne : segments ≠ []) :
    ∃ c, (['/'].intercalate segments).getLast? = some c ∧ EndsStep c := by
  induction segments generalizing below steps with
  | nil => exact absurd rfl hne
  | cons segment rest ih =>
    cases rest with
    | nil =>
      rw [List.intercalate_singleton]
      cases segment with
      | nil =>
        -- after the last slash there has to be a step
        have hmissing := (readSteps_nil_cons_eq_ok_iff.1 h).2
        cases hmissing
      | cons c name =>
        obtain ⟨step, -, hstep, -⟩ := (readSteps_cons_eq_ok_iff (List.cons_ne_nil c name)).1 h
        exact exists_endsStep_of_readStep hstep
    | cons next rest =>
      have hlater : ∃ below steps, readSteps text below (next :: rest) = .ok steps := by
        cases segment with
        | nil => exact ⟨_, _, (readSteps_nil_cons_eq_ok_iff.1 h).2⟩
        | cons c name =>
          obtain ⟨-, later, -, hlater, -⟩ := (readSteps_cons_eq_ok_iff (List.cons_ne_nil c name)).1 h
          exact ⟨_, _, hlater⟩
      obtain ⟨below', steps', hlater⟩ := hlater
      obtain ⟨c, hc, hends⟩ := ih hlater (List.cons_ne_nil _ _)
      have hbehind : ['/'].intercalate (next :: rest) ≠ [] := by
        intro hnil
        rw [hnil] at hc
        cases hc
      rw [List.intercalate_cons_cons, List.getLast?_append_of_ne_nil _ hbehind]
      exact ⟨c, hc, hends⟩

/-! ## Without the slash -/

/-- The text without a slash at its end. -/
def withoutSlash (path : String) : String := .ofList (dropFinal '/' path.toList)

namespace ElementPath

/-- The steps that a text writes, if it writes a path. -/
def steps? (path : String) : Option (List Step) := (parse path).toOption.map (·.steps)

theorem steps?_eq_some_iff {path : String} {steps : List Step} :
    steps? path = some steps ↔ parse path = .ok ⟨path, steps⟩ := by
  unfold steps?
  constructor
  · intro h
    cases hparse : parse path with
    | error error =>
      rw [hparse] at h
      cases h
    | ok found =>
      rw [hparse] at h
      obtain ⟨c, rest, segments, steps', -, -, -, -, rfl⟩ := parse_eq_ok_iff.1 hparse
      cases h
      rfl
  · intro h
    rw [h]
    rfl

/-- A path with a slash at its end has the steps that it has without it. -/
theorem steps?_withoutSlash {path : String} {steps : List Step} (h : steps? path = some steps) :
    steps? (withoutSlash path) = some steps := by
  rcases eq_dropFinal_or '/' path.toList with hsame | hslash
  · have hpath : withoutSlash path = path := by
      rw [withoutSlash, ← hsame, String.ofList_toList]
    rwa [hpath]
  · obtain ⟨c, rest, segments, _, htrim, hc, hsegments, hsteps, heq⟩ :=
      parse_eq_ok_iff.1 (steps?_eq_some_iff.1 h)
    cases heq
    generalize hfront : dropFinal '/' path.toList = front at hslash
    rcases allBlank_or_exists_trimmed front with hblank | ⟨lead, text, trail, rfl, hlead, htrail, htext, hne⟩
    · -- a slash alone is no path
      have honly : trim path.toList = ['/'] := by
        have hslash' := (isTrimmed_singleton (c := '/') (by decide)).trim_blanks hblank .nil
        rwa [List.append_nil, ← hslash] at hslash'
      rw [honly] at htrim
      cases htrim
      exact absurd rfl hc
    · have hbody : IsTrimmed (text ++ trail ++ ['/']) := by
        refine ⟨?_, fun d hd => ?_⟩
        · rw [List.append_assoc, List.head?_append_of_ne_nil _ hne]
          exact htext.head
        · obtain rfl : '/' = d := Option.some.inj (List.getLast?_concat.symm.trans hd)
          decide
      have htrim' : trim path.toList = text ++ trail ++ ['/'] := by
        have htrimmed := hbody.trim_blanks hlead .nil
        rwa [List.append_nil, ← List.append_assoc lead, ← hslash] at htrimmed
      rw [← htrim, htrim', dropFinal_concat] at hsegments
      -- blanks in front of the slash would end the last step
      obtain ⟨d, hd, hends⟩ := exists_endsStep_of_readSteps hsteps (ne_nil_of_splitSegments? hsegments)
      rw [intercalate_of_splitSegments? hsegments] at hd
      obtain rfl : trail = [] := by
        by_contra hmore
        rw [List.getLast?_append_of_ne_nil _ hmore] at hd
        exact absurd (List.mem_of_mem_getLast? hd) (htrail.notMem hends.isBlank)
      rw [List.append_nil] at hsegments hd
      obtain ⟨e, more, rfl⟩ := List.exists_cons_of_ne_nil hne
      have hstart : (withoutSlash path).toList = lead ++ ((e :: more) ++ []) := by
        rw [withoutSlash, hfront, String.toList_ofList]
      rw [steps?_eq_some_iff, parse_eq_ok_iff]
      refine ⟨e, more, segments, _, ?_, ?_, ?_, readSteps_congr hsteps _, rfl⟩
      · rw [hstart, htext.trim_blanks hlead .nil]
      · rw [htrim'] at htrim
        cases htrim
        exact hc
      · rwa [dropFinal_eq_self fun hlast => hends.ne_slash (Option.some.inj (hd.symm.trans hlast))]

end ElementPath

end Docweave
