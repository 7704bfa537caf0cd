import Docweave.CommandLine.Program
import Docweave.Proofs.CommandLine.RunSwitches

set_option autoImplicit false

/-! # Evaluations without a command

A model can be given without the word `run`, which then counts as if it stood just before the first
argument without a hyphen. `Invocation.run_runLine_iff` says when this is as good as the word in front of
all arguments: when no switch stands before the model but the one that belongs to the program as a
whole. Any other switch there is refused; `not_run_runLine` is an example. -/

namespace Docweave

open Docweave.Text

/-! ## The word that is put in -/

section InsertRun

variable {name : String}

theorem insertRun_append {front : List String} (h : ∀ argument ∈ front, startsWithHyphen argument = true)
    (rest : List String) : insertRun (front ++ rest) = front ++ insertRun rest := by
  induction front with
  | nil => rfl
  | cons argument front ih =>
    obtain ⟨hargument, hfront⟩ := List.forall_mem_cons.1 h
    rw [List.cons_append, insertRun, if_pos hargument, ih hfront, List.cons_append]

theorem startsWithHyphen_of_mem_commandNames (h : name ∈ commandNames) :
    startsWithHyphen name = false := by
  have hall : ∀ name ∈ commandNames, startsWithHyphen name = false := by decide +kernel
  exact hall name h

/-- The name of a command stays what it is. -/
theorem insertRun_command (h : name ∈ commandNames) (rest : List String) :
    insertRun (name :: rest) = name :: rest := by
  rw [insertRun, if_neg (by rw [startsWithHyphen_of_mem_commandNames h]; exact Bool.false_ne_true),
    if_pos h]

theorem insertRun_model (hstarts : startsWithHyphen name = false) (h : name ∉ commandNames)
    (rest : List String) : insertRun (name :: rest) = "run" :: name :: rest := by
  rw [insertRun, if_neg (by rw [hstarts]; exact Bool.false_ne_true), if_neg h]

end InsertRun

/-! ## Arguments that the program as a whole refuses -/

/-- The argument starts with a hyphen and the program as a whole has no use for it. -/
structure IsMisplaced (argument : String) : Prop where
  starts : startsWithHyphen argument = true
  ne_dashes : argument ≠ "--"
  refused : ∃ piece, readArgument programSwitches argument = ([piece], none) ∧
    ∀ given : Given, ∃ problem, given.takeSwitch piece = .error (.wrong problem)

theorem isMisplaced_of_wrong {argument : String} {problem : UsageProblem}
    (hstarts : startsWithHyphen argument = true) (hne : argument ≠ "--")
    (h : readArgument programSwitches argument = ([.wrong problem], none)) : IsMisplaced argument :=
  ⟨hstarts, hne, _, h, fun _ => ⟨problem, rfl⟩⟩

/-- A hyphen alone is a word. -/
theorem isMisplaced_hyphen : IsMisplaced "-" :=
  ⟨by decide +kernel, by decide, .word "-", by decide +kernel, fun _ => ⟨_, rfl⟩⟩

theorem readArgument_named_misplaced :
    ∀ switch ∈ runSwitches, switch ≠ .help → switch ≠ .noColor →
      startsWithHyphen ("--" ++ switch.name) = true ∧
      readArgument programSwitches ("--" ++ switch.name) =
        ([.wrong (.unexpected ("--" ++ switch.name))], none) := by
  decide +kernel

theorem readArgument_lettered_misplaced :
    ∀ switch ∈ runSwitches, switch ≠ .help → ∀ letter ∈ switch.letter?,
      startsWithHyphen (.ofList ['-', letter]) = true ∧
      readArgument programSwitches (.ofList ['-', letter]) =
        ([.wrong (.unexpected (.ofList ['-', letter]))], none) := by
  intro switch hmem hhelp letter hletter
  cases switch <;> cases hletter <;> revert hmem hhelp <;> decide +kernel

theorem named?_programSwitches :
    ∀ switch ∈ runSwitches, switch.takesValue = true →
      Switch.named? programSwitches switch.name = none := by
  decide +kernel

theorem startsWithHyphen_joined (switch : Switch) (value : String) :
    startsWithHyphen ("--" ++ switch.name ++ "=" ++ value) = true := by
  rw [startsWithHyphen, toList_joined]
  rfl

namespace WrittenSwitch

theorem IsForRun.eq_named_noColor {written : WrittenSwitch} (h : written.IsForRun)
    (hswitch : written.switch = .noColor) : written = .named .noColor := by
  cases h with
  | named hmem hflag hhelp => rw [← hswitch]; rfl
  | lettered hmem hletter hhelp =>
    cases hswitch
    cases hletter
  | joined hmem htakes haccepts =>
    cases hswitch
    cases htakes
  | apart hmem htakes haccepts =>
    cases hswitch
    cases htakes

/-- The switches of an evaluation are refused, but for the one of the program as a whole. -/
theorem IsForRun.isMisplaced {written : WrittenSwitch} (h : written.IsForRun)
    (hswitch : written.switch ≠ .noColor) :
    ∃ argument rest, written.arguments = argument :: rest ∧ IsMisplaced argument := by
  cases h with
  | named hmem hflag hhelp =>
    obtain ⟨hstarts, hread⟩ := readArgument_named_misplaced _ hmem hhelp hswitch
    exact ⟨_, [], rfl, isMisplaced_of_wrong hstarts (readArgument_named _ hmem).1 hread⟩
  | lettered hmem hletter hhelp =>
    obtain ⟨hstarts, hread⟩ := readArgument_lettered_misplaced _ hmem hhelp _ hletter
    exact ⟨_, [], rfl, isMisplaced_of_wrong hstarts (readArgument_lettered _ hmem _ hletter).1 hread⟩
  | @joined switch value hmem htakes haccepts =>
    have hread := readArgument_joined programSwitches switch value
    rw [named?_programSwitches switch hmem htakes] at hread
    exact ⟨_, [], rfl, isMisplaced_of_wrong (startsWithHyphen_joined switch value)
      (joined_ne_dashes switch value) hread⟩
  | @apart switch value hmem htakes haccepts =>
    have hhelp : switch ≠ .help := by
      rintro rfl
      cases htakes
    obtain ⟨hstarts, hread⟩ := readArgument_named_misplaced _ hmem hhelp hswitch
    exact ⟨_, [value], rfl, isMisplaced_of_wrong hstarts (readArgument_named _ hmem).1 hread⟩

end WrittenSwitch

/-! ## Arguments of the program -/

/-- Nothing but the switch of the program as a whole, at most once. -/
inductive IsPlainFront : List String → List Piece → Given → Prop where
  | nil : IsPlainFront [] [] .nothing
  | noColor : IsPlainFront ["--no-color"] [.flag .noColor] ⟨[.noColor], [], none⟩

namespace IsPlainFront

variable {front : List String} {pieces : List Piece} {given : Given}
  (h : IsPlainFront front pieces given)

include h

theorem startsWithHyphen : ∀ argument ∈ front, Docweave.startsWithHyphen argument = true := by
  cases h with
  | nil => exact nofun
  | noColor => decide +kernel

theorem readArguments_append (rest : List String) :
    readArguments programSwitches (front ++ rest) = pieces ++ readArguments programSwitches rest := by
  cases h with
  | nil => rfl
  | noColor => exact readArguments_cons (by decide) (by decide +kernel) rest

theorem foldlM_takeSwitch : pieces.foldlM Given.takeSwitch Given.nothing = .ok given := by
  cases h <;> rfl

theorem takeWhile_append (rest : List String) :
    (front ++ rest).takeWhile Docweave.startsWithHyphen =
      front ++ rest.takeWhile Docweave.startsWithHyphen :=
  List.takeWhile_append_of_pos h.startsWithHyphen

/-- The argument behind such a front is the command if it does not start with a hyphen. -/
theorem readCommandLine_append {name : String} (hname : Docweave.startsWithHyphen name = false)
    (rest : List String) :
    readCommandLine (front ++ name :: rest) = readCommandNamed (given.has .noColor) name rest := by
  have htake : (front ++ name :: rest).takeWhile Docweave.startsWithHyphen = front := by
    rw [h.takeWhile_append, List.takeWhile_cons_of_neg (by rw [hname]; exact Bool.false_ne_true),
      List.append_nil]
  have hpieces := h.readArguments_append []
  rw [List.append_nil, readArguments, List.append_nil] at hpieces
  have hend : .endOfSwitches ∉ pieces := by
    cases h <;> decide
  unfold readCommandLine
  dsimp only
  rw [htake, hpieces, h.foldlM_takeSwitch, List.drop_left]
  exact if_neg hend

theorem readProgram_append_command {name : String} (hname : name ∈ commandNames) (rest : List String) :
    readProgram (front ++ name :: rest) = readCommandNamed (given.has .noColor) name rest := by
  rw [readProgram, insertRun_append h.startsWithHyphen, insertRun_command hname]
  exact h.readCommandLine_append (startsWithHyphen_of_mem_commandNames hname) rest

/-- A model behind such a front is evaluated. -/
theorem readProgram_append_model {model : String} (hstarts : Docweave.startsWithHyphen model = false)
    (hname : model ∉ commandNames) (rest : List String) :
    readProgram (front ++ model :: rest) = readRun (given.has .noColor) (model :: rest) := by
  have hrun : Docweave.startsWithHyphen "run" = false := by decide +kernel
  rw [readProgram, insertRun_append h.startsWithHyphen, insertRun_model hstarts hname]
  exact h.readCommandLine_append hrun (model :: rest)

/-- An argument behind such a front that is refused makes the whole command line a wrong one. -/
theorem readProgram_of_isMisplaced {argument : String} (hargument : IsMisplaced argument)
    (rest : List String) :
    ∃ problem, readProgram (front ++ argument :: rest) = .error (.wrong problem) := by
  obtain ⟨hstarts, hne, piece, hread, hrefused⟩ := hargument
  obtain ⟨problem, hproblem⟩ := hrefused given
  refine ⟨problem, ?_⟩
  rw [readProgram, insertRun_append h.startsWithHyphen, insertRun, if_pos hstarts]
  unfold readCommandLine
  dsimp only
  rw [h.takeWhile_append, List.takeWhile_cons_of_pos hstarts, h.readArguments_append,
    readArguments_cons hne hread, List.foldlM_append, h.foldlM_takeSwitch]
  change (([piece] ++ _).foldlM Given.takeSwitch given >>= _) = _
  rw [List.singleton_append, List.foldlM_cons, hproblem]
  rfl

end IsPlainFront

/-! ## Evaluations -/

/-- The evaluation of a model that is asked for by what is given. -/
def RunRequest.ofGiven (plain : Bool) (model : String) (given : Given) : RunRequest where
  model := model
  check := given.has .check
  dumpTree := given.has .dumpTree
  quiet := given.has .quiet
  writeOutput := !given.has .noWrite
  indent := (given.values .indent).head?.bind fun value => count? value.toList
  localSources := ((given.values .localSources).head?.bind Given.localSourcesOf?).getD .confined
  debug := given.has .debug
  plain := plain || given.has .noColor

theorem readRun_eq_ok {arguments : List String} {given : Given} {model : String}
    (h : Given.ofArguments runSwitches arguments = .ok { given with subject := some model })
    (plain : Bool) : readRun plain arguments = .ok (.run (.ofGiven plain model given)) := by
  rw [readRun, h]
  rfl

theorem readProgram_run (arguments : List String) :
    readProgram ("run" :: arguments) = readRun false arguments :=
  IsPlainFront.nil.readProgram_append_command (by decide) arguments

/-- The switch of the program as a whole counts the same before the command and behind it. -/
theorem ofGiven_noColor (model : String) (switches : List WrittenSwitch) :
    RunRequest.ofGiven false model (WrittenSwitch.addTo .nothing (.named .noColor :: switches)) =
      .ofGiven true model (WrittenSwitch.addTo .nothing switches) := by
  rfl

/-! ## Without the command -/

theorem startsWithHyphen_word {word : String} (h : isSwitchLike word = false) (hne : word ≠ "-") :
    startsWithHyphen word = false := by
  unfold isSwitchLike at h
  unfold startsWithHyphen
  cases hword : word.toList with
  | nil => rfl
  | cons c rest =>
    rw [List.head?_cons, beq_eq_false_iff_ne]
    intro hc
    obtain rfl : c = '-' := Option.some.inj hc
    cases rest with
    | nil => exact hne (String.toList_inj.1 hword)
    | cons d rest =>
      rw [hword] at h
      cases h

section RunLine

variable {before after : List WrittenSwitch} {model : String}

/-- Switches that are all the one of the program as a whole make a plain front. -/
theorem IsRunLine.exists_isPlainFront (h : IsRunLine before model after)
    (hplain : ∀ written ∈ before, written.switch = .noColor) :
    (before = [] ∨ before = [.named .noColor]) ∧
      ∃ pieces given, IsPlainFront (before.flatMap WrittenSwitch.arguments) pieces given := by
  cases before with
  | nil => exact ⟨.inl rfl, _, _, .nil⟩
  | cons written rest =>
    obtain ⟨hfirst, hrest⟩ := List.forall_mem_cons.1 hplain
    cases rest with
    | nil =>
      obtain rfl := (h.isForRun written List.mem_cons_self).eq_named_noColor hfirst
      exact ⟨.inr rfl, _, _, .noColor⟩
    | cons other rest =>
      have hother := hrest other List.mem_cons_self
      have hnodup := h.nodup
      simp [hfirst, hother] at hnodup

/-- The arguments before the model can stand there without a command. -/
def IsPlainStart (before : List WrittenSwitch) (model : String) : Prop :=
  (∀ written ∈ before, written.switch = .noColor) ∧ model ≠ "-"

theorem readProgram_eq_of_isPlainStart (h : IsRunLine before model after) (hname : model ∉ commandNames)
    (hstart : IsPlainStart before model) :
    readProgram (runLine before model after) = readProgram ("run" :: runLine before model after) := by
  obtain ⟨hplain, hmodel⟩ := hstart
  have hword := startsWithHyphen_word h.isWord hmodel
  have hafter : IsRunLine [] model after := h.sublist (List.nil_sublist before) (.refl after)
  rw [readProgram_run, readRun_eq_ok h.ofArguments]
  rcases (h.exists_isPlainFront hplain).1 with rfl | rfl
  · exact (IsPlainFront.nil.readProgram_append_model hword hname _).trans
      (readRun_eq_ok hafter.ofArguments false)
  · rw [List.singleton_append, ofGiven_noColor]
    exact (IsPlainFront.noColor.readProgram_append_model hword hname _).trans
      (readRun_eq_ok hafter.ofArguments true)

theorem exists_readProgram_eq_error (h : IsRunLine before model after)
    (hstart : ¬ IsPlainStart before model) :
    ∃ problem, readProgram (runLine before model after) = .error (.wrong problem) := by
  cases hfind : before.find? fun written => written.switch ≠ .noColor with
  | none =>
    have hplain : ∀ written ∈ before, written.switch = .noColor := by
      simpa using List.find?_eq_none.1 hfind
    have hmodel : model = "-" := by
      by_contra hne
      exact hstart ⟨hplain, hne⟩
    obtain ⟨-, pieces, given, hfront⟩ := h.exists_isPlainFront hplain
    rw [runLine, hmodel]
    exact hfront.readProgram_of_isMisplaced isMisplaced_hyphen _
  | some written =>
    -- the first switch that is refused, behind those that are not
    obtain ⟨hne, first, rest, rfl, hfirst⟩ := List.find?_eq_some_iff_append.1 hfind
    have hplain : ∀ other ∈ first, other.switch = .noColor := by simpa using hfirst
    have hsmall : IsRunLine first model [] :=
      h.sublist (List.sublist_append_left first _) (List.nil_sublist after)
    obtain ⟨-, pieces, given, hfront⟩ := hsmall.exists_isPlainFront hplain
    have hwritten : written.IsForRun := h.isForRun written (by simp)
    obtain ⟨argument, more, harguments, hmisplaced⟩ := hwritten.isMisplaced (of_decide_eq_true hne)
    rw [runLine, List.flatMap_append, List.flatMap_cons, harguments]
    simpa only [List.append_assoc, List.cons_append] using
      hfront.readProgram_of_isMisplaced hmisplaced _

end RunLine

/-! ## Outcomes -/

theorem exitCode_evaluate_ne (request : RunRequest) (log : Log) (colored : Bool)
    (world : Surroundings) (tree : Element) :
    (request.evaluate log colored world tree).exitCode ≠ 2 := by
  unfold RunRequest.evaluate
  dsimp only
  split
  · exact nofun
  · split <;> exact nofun

/-- An evaluation never ends like a wrong command line. -/
theorem exitCode_perform_ne (request : RunRequest) (log : Log) (colored : Bool)
    (world : Surroundings) : (request.perform log colored world).exitCode ≠ 2 := by
  unfold RunRequest.perform
  split
  · exact nofun
  · split
    · exact nofun
    · split
      · split <;> exact nofun
      · split
        · exact nofun
        · split
          · exact nofun
          · exact exitCode_evaluate_ne _ _ _ _ _

namespace Invocation

theorem run_eq_of_readProgram_eq {arguments others : List String}
    (h : readProgram arguments = readProgram others) (environment : List (String × String))
    (world : Surroundings) :
    (⟨arguments, environment, world⟩ : Invocation).run =
      (⟨others, environment, world⟩ : Invocation).run := by
  unfold Invocation.run
  dsimp only
  rw [h]

theorem run_eq_of_wrong {arguments : List String} {problem : UsageProblem}
    (h : readProgram arguments = .error (.wrong problem)) (environment : List (String × String))
    (world : Surroundings) :
    (⟨arguments, environment, world⟩ : Invocation).run =
      .telling world 2 (asLines (("error: " ++ problem.message) :: "" :: usage)) := by
  unfold Invocation.run
  dsimp only
  rw [h]

theorem exitCode_run_ne {arguments : List String} {request : RunRequest}
    (h : readProgram arguments = .ok (.run request)) (environment : List (String × String))
    (world : Surroundings) : (⟨arguments, environment, world⟩ : Invocation).run.exitCode ≠ 2 := by
  unfold Invocation.run
  dsimp only
  rw [h]
  exact exitCode_perform_ne _ _ _ _

variable {before after : List WrittenSwitch} {model : String}

/-- A command line that is wrong without the command is right with it. -/
theorem run_runLine_ne (h : IsRunLine before model after) (hstart : ¬ IsPlainStart before model)
    (environment : List (String × String)) (world : Surroundings) :
    (⟨runLine before model after, environment, world⟩ : Invocation).run.exitCode = 2 ∧
      (⟨"run" :: runLine before model after, environment, world⟩ : Invocation).run.exitCode ≠ 2 := by
  obtain ⟨problem, hwrong⟩ := exists_readProgram_eq_error h hstart
  rw [run_eq_of_wrong hwrong]
  have hright := (readProgram_run (runLine before model after)).trans (readRun_eq_ok h.ofArguments false)
  exact ⟨rfl, exitCode_run_ne hright environment world⟩

/-- A model with switches of an evaluation around it is evaluated without the word `run` as it is with
this word in front, if no switch stands before it but the one of the program as a whole. Otherwise the
command line is a wrong one. -/
theorem run_runLine_iff (h : IsRunLine before model after) (hname : model ∉ commandNames)
    (environment : List (String × String)) (world : Surroundings) :
    ((⟨runLine before model after, environment, world⟩ : Invocation).run =
      (⟨"run" :: runLine before model after, environment, world⟩ : Invocation).run ↔
        IsPlainStart before model) ∧
    (IsPlainStart before model ∨
      (⟨runLine before model after, environment, world⟩ : Invocation).run.exitCode = 2 ∧
      (⟨"run" :: runLine before model after, environment, world⟩ : Invocation).run.exitCode ≠ 2) := by
  by_cases hstart : IsPlainStart before model
  · have heq := run_eq_of_readProgram_eq (readProgram_eq_of_isPlainStart h hname hstart) environment world
    exact ⟨iff_of_true heq hstart, .inl hstart⟩
  · obtain ⟨hwrong, hright⟩ := run_runLine_ne h hstart environment world
    refine ⟨iff_of_false (fun heq => hright ?_) hstart, .inr ⟨hwrong, hright⟩⟩
    rw [← heq, hwrong]

/-- The text of a model with a page in it. -/
def pageModelText : String := "<x:model xmlns:x='xdra'><page><x:literal>Hi</x:literal></page></x:model>"

/-- A directory with a model in it. -/
def pageWorld : Surroundings := ⟨.around (.directory [("m.xml", .file (.text pageModelText))]), .text ""⟩

theorem readText_pageWorld : pageWorld.files.readText ⟨"m.xml"⟩ = .ok pageModelText := by
  rw [Disk.readText, Disk.open?_eq_follow (by decide)]
  rfl

/-- The switch of the program stands before the model, two switches of the evaluation behind it. The
page is shown with and without the word `run`. -/
theorem run_runLine_iff_page :
    IsRunLine [.named .noColor] "m.xml" [.named .noWrite, .apart .indent "2"] ∧
      "m.xml" ∉ commandNames ∧
      let short : Invocation := ⟨["--no-color", "m.xml", "--no-write", "--indent", "2"], [], pageWorld⟩
      let long : Invocation :=
        ⟨["run", "--no-color", "m.xml", "--no-write", "--indent", "2"], [], pageWorld⟩
      short.run = long.run ∧ long.run.exitCode = 0 ∧ long.run.output = "<page>Hi\n</page>\n" := by
  have hline : IsRunLine [.named .noColor] "m.xml" [.named .noWrite, .apart .indent "2"] := by
    refine ⟨?_, by decide, by decide +kernel⟩
    simp only [List.cons_append, List.nil_append, List.forall_mem_cons]
    exact ⟨.named (by decide) rfl (by decide), .named (by decide) rfl (by decide),
      .apart (by decide) rfl (by decide +kernel), nofun⟩
  have hstart : IsPlainStart [.named .noColor] "m.xml" := ⟨by simp [WrittenSwitch.switch], by decide⟩
  have hrequest : readProgram ["run", "--no-color", "m.xml", "--no-write", "--indent", "2"] =
      .ok (.run ⟨"m.xml", false, false, false, false, some 2, .confined, false, true⟩) := by
    decide +kernel
  refine ⟨hline, by decide, (run_runLine_iff hline (by decide) [] pageWorld).1.2 hstart, ?_⟩
  -- with the file read, what is left of the run is a computation
  unfold Invocation.run
  dsimp only
  rw [hrequest]
  dsimp only [RunRequest.perform]
  rw [readText_pageWorld]
  decide +kernel

/-- With a width for the indent before the model, the width is taken for the model. -/
theorem not_run_runLine :
    ¬ ∀ (before after : List WrittenSwitch) (model : String) (environment : List (String × String))
      (world : Surroundings), IsRunLine before model after → model ∉ commandNames →
        (⟨runLine before model after, environment, world⟩ : Invocation).run =
          (⟨"run" :: runLine before model after, environment, world⟩ : Invocation).run := by
  intro h
  have hline : IsRunLine [.apart .indent "2"] "m.xml" [] := by
    refine ⟨?_, by decide, by decide +kernel⟩
    simp only [List.append_nil, List.forall_mem_cons]
    exact ⟨.apart (by decide) rfl (by decide +kernel), nofun⟩
  have hstart : ¬ IsPlainStart [.apart .indent "2"] "m.xml" := by
    simp [IsPlainStart, WrittenSwitch.switch]
  obtain ⟨hwrong, hright⟩ := run_runLine_ne hline hstart [] .empty
  refine hright ?_
  rw [← h _ _ _ _ _ hline (by decide), hwrong]

end Invocation

end Docweave
