import Docweave.CommandLine.Arguments
import Docweave.Proofs.Text.Counts

set_option autoImplicit false

/-! # The switches of an evaluation

A switch can be written by its name or by its letter, with its value behind an equals sign or as the
argument that follows. `IsRunLine.ofArguments` says that the switches of an evaluation are read as what
they are, in whatever order they stand before and after the model. -/

namespace Docweave

open Docweave.Text

/-! ## Written switches -/

/-- A switch as it is written among the arguments. -/
inductive WrittenSwitch where
  /-- By its name. -/
  | named (switch : Switch)
  /-- By its letter. -/
  | lettered (switch : Switch) (letter : Char)
  /-- By its name, with a value behind an equals sign. -/
  | joined (switch : Switch) (value : String)
  /-- By its name, with a value as the argument that follows. -/
  | apart (switch : Switch) (value : String)

namespace WrittenSwitch

/-- The arguments that write a switch. -/
def arguments : WrittenSwitch → List String
  | named switch => ["--" ++ switch.name]
  | lettered _ letter => [.ofList ['-', letter]]
  | joined switch value => ["--" ++ switch.name ++ "=" ++ value]
  | apart switch value => ["--" ++ switch.name, value]

/-- The switch that is written. -/
def switch : WrittenSwitch → Switch
  | named switch => switch
  | lettered switch _ => switch
  | joined switch _ => switch
  | apart switch _ => switch

/-- The switch without a value that is given. -/
def flag? : WrittenSwitch → Option Switch
  | named switch => some switch
  | lettered switch _ => some switch
  | joined _ _ => none
  | apart _ _ => none

/-- The switch with a value that is given. -/
def setting? : WrittenSwitch → Option (Switch × String)
  | named _ => none
  | lettered _ _ => none
  | joined switch value => some (switch, value)
  | apart switch value => some (switch, value)

/-- What the arguments say. -/
def piece : WrittenSwitch → Piece
  | named switch => .flag switch
  | lettered switch _ => .flag switch
  | joined switch value => .setting switch value
  | apart switch value => .setting switch value

/-- The switch is one of those of an evaluation, and it is written with a value that it can have if it
takes one. The switch that asks for help is left out. -/
inductive IsForRun : WrittenSwitch → Prop where
  | named {switch : Switch} (hmem : switch ∈ runSwitches) (hflag : switch.takesValue = false)
      (hhelp : switch ≠ .help) : IsForRun (.named switch)
  | lettered {switch : Switch} {letter : Char} (hmem : switch ∈ runSwitches)
      (hletter : switch.letter? = some letter) (hhelp : switch ≠ .help) :
      IsForRun (.lettered switch letter)
  | joined {switch : Switch} {value : String} (hmem : switch ∈ runSwitches)
      (htakes : switch.takesValue = true) (haccepts : Given.accepts switch value = true) :
      IsForRun (.joined switch value)
  | apart {switch : Switch} {value : String} (hmem : switch ∈ runSwitches)
      (htakes : switch.takesValue = true) (haccepts : Given.accepts switch value = true) :
      IsForRun (.apart switch value)

end WrittenSwitch

/-! ## One argument -/

theorem isSwitchLike_dashes : isSwitchLike "--" = true := by decide +kernel

section Arguments

variable {known : List Switch} {argument : String} {pieces : List Piece}

theorem readArguments_cons (hend : argument ≠ "--")
    (h : readArgument known argument = (pieces, none)) (rest : List String) :
    readArguments known (argument :: rest) = pieces ++ readArguments known rest := by
  rw [readArguments, if_neg hend, h]

theorem readArguments_cons_cons {switch : Switch} {value : String} (hend : argument ≠ "--")
    (h : readArgument known argument = (pieces, some switch)) (hvalue : isSwitchLike value = false)
    (rest : List String) :
    readArguments known (argument :: value :: rest) =
      pieces ++ .setting switch value :: readArguments known rest := by
  rw [readArguments, if_neg hend, h]
  dsimp only
  rw [hvalue]
  rfl

theorem readArgument_word {word : String} (h : isSwitchLike word = false) :
    readArgument known word = ([.word word], none) := by
  unfold isSwitchLike at h
  unfold readArgument
  split
  · next heq =>
    rw [heq] at h
    cases h
  · next heq =>
    rw [heq] at h
    cases h
  · rfl

theorem readArguments_word {word : String} (h : isSwitchLike word = false) (rest : List String) :
    readArguments known (word :: rest) = .word word :: readArguments known rest := by
  have hend : word ≠ "--" := by
    rintro rfl
    rw [isSwitchLike_dashes] at h
    cases h
  exact readArguments_cons hend (readArgument_word h) rest

end Arguments

/-- A value that a switch can have does not look like a switch. -/
theorem isSwitchLike_of_accepts {switch : Switch} {value : String} (hmem : switch ∈ runSwitches)
    (htakes : switch.takesValue = true) (h : Given.accepts switch value = true) :
    isSwitchLike value = false := by
  have hcases : ∀ switch ∈ runSwitches, switch.takesValue = true →
      switch = .indent ∨ switch = .localSources := by decide
  rcases hcases switch hmem htakes with rfl | rfl
  · obtain ⟨width, hwidth⟩ := Option.isSome_iff_exists.1 h
    have hhyphen : '-' ∉ value.toList := notMem_of_count? hwidth (by decide) (by decide)
    unfold isSwitchLike
    split
    · next heq => exact absurd (heq ▸ List.mem_cons_self) hhyphen
    · rfl
  · rw [Given.accepts] at h
    unfold Given.localSourcesOf? at h
    split at h
    · decide +kernel
    · decide +kernel
    · cases h

/-! ## Names -/

theorem readArgument_named :
    ∀ switch ∈ runSwitches, "--" ++ switch.name ≠ "--" ∧
      readArgument runSwitches ("--" ++ switch.name) =
        if switch.takesValue then ([], some switch) else ([.flag switch], none) := by
  decide +kernel

theorem readArgument_lettered :
    ∀ switch ∈ runSwitches, ∀ letter ∈ switch.letter?,
      String.ofList ['-', letter] ≠ "--" ∧
      readArgument runSwitches (.ofList ['-', letter]) = ([.flag switch], none) := by
  intro switch hmem letter hletter
  cases switch <;> cases hletter <;> revert hmem <;> decide +kernel

theorem toList_joined (switch : Switch) (value : String) :
    ("--" ++ switch.name ++ "=" ++ value).toList =
      '-' :: '-' :: (switch.name.toList ++ '=' :: value.toList) := by
  simp only [String.toList_append, List.append_assoc]
  rfl

theorem joined_ne_dashes (switch : Switch) (value : String) :
    "--" ++ switch.name ++ "=" ++ value ≠ "--" := by
  intro h
  have hlist := congrArg String.toList h
  rw [toList_joined] at hlist
  have htail : switch.name.toList ++ '=' :: value.toList = [] := (List.cons.inj (List.cons.inj hlist).2).2
  exact absurd htail (List.append_ne_nil_of_right_ne_nil _ (List.cons_ne_nil _ _))

/-- Behind a name that is known comes its value, if it takes one. -/
theorem readArgument_joined (known : List Switch) (switch : Switch) (value : String) :
    readArgument known ("--" ++ switch.name ++ "=" ++ value) =
      match Switch.named? known switch.name with
      | none => ([.wrong (.unexpected ("--" ++ switch.name ++ "=" ++ value))], none)
      | some found =>
        if found.takesValue then ([.setting found value], none)
        else ([.wrong (.valueUnneeded found)], none) := by
  have hnotMem : '=' ∉ switch.name.toList := by cases switch <;> decide +kernel
  have hname : ∀ c ∈ switch.name.toList, decide (c ≠ '=') = true :=
    fun c hc => decide_eq_true (ne_of_mem_of_not_mem hc hnotMem)
  have htake : (switch.name.toList ++ '=' :: value.toList).takeWhile (fun c => decide (c ≠ '=')) =
      switch.name.toList := by
    rw [List.takeWhile_append_of_pos hname, List.takeWhile_cons_of_neg (by decide), List.append_nil]
  rw [readArgument, toList_joined]
  change readName known _ (switch.name.toList ++ '=' :: value.toList) = _
  unfold readName
  dsimp only
  rw [htake, List.drop_left, String.ofList_toList]
  cases Switch.named? known switch.name with
  | none => rfl
  | some found =>
    dsimp only
    rw [String.ofList_toList]

namespace WrittenSwitch

/-! ## Many arguments -/

theorem named?_runSwitches :
    ∀ switch ∈ runSwitches, Switch.named? runSwitches switch.name = some switch := by
  decide +kernel

/-- The arguments that write a switch are read as this switch. -/
theorem IsForRun.readArguments_append {written : WrittenSwitch} (h : written.IsForRun)
    (rest : List String) :
    Docweave.readArguments runSwitches (written.arguments ++ rest) =
      written.piece :: Docweave.readArguments runSwitches rest := by
  cases h with
  | named hmem hflag hhelp =>
    obtain ⟨hend, hread⟩ := readArgument_named _ hmem
    rw [hflag] at hread
    exact readArguments_cons hend hread rest
  | lettered hmem hletter hhelp =>
    obtain ⟨hend, hread⟩ := readArgument_lettered _ hmem _ hletter
    exact readArguments_cons hend hread rest
  | @joined switch value hmem htakes haccepts =>
    have hread := readArgument_joined runSwitches switch value
    rw [named?_runSwitches switch hmem] at hread
    dsimp only at hread
    rw [htakes] at hread
    exact readArguments_cons (joined_ne_dashes switch value) hread rest
  | apart hmem htakes haccepts =>
    obtain ⟨hend, hread⟩ := readArgument_named _ hmem
    rw [htakes] at hread
    exact readArguments_cons_cons hend hread (isSwitchLike_of_accepts hmem htakes haccepts) rest

theorem readArguments_flatMap {switches : List WrittenSwitch} (h : ∀ written ∈ switches, written.IsForRun)
    (rest : List String) :
    Docweave.readArguments runSwitches (switches.flatMap arguments ++ rest) =
      switches.map piece ++ Docweave.readArguments runSwitches rest := by
  induction switches with
  | nil => rfl
  | cons written switches ih =>
    obtain ⟨hwritten, hswitches⟩ := List.forall_mem_cons.1 h
    rw [List.flatMap_cons, List.append_assoc, hwritten.readArguments_append, ih hswitches]
    rfl

end WrittenSwitch

/-! ## Gathering -/

namespace Given

theorem take_flag {switch : Switch} (hmem : switch ∈ runSwitches) (hhelp : switch ≠ .help)
    {given : Given} (hnew : switch ∉ given.flags) :
    given.take (.flag switch) = .ok { given with flags := given.flags ++ [switch] } := by
  have hversion : switch ≠ .version := by
    rintro rfl
    exact absurd hmem (by decide)
  cases switch <;> first | contradiction | exact if_neg hnew

theorem take_setting {switch : Switch} {value : String} (haccepts : accepts switch value = true)
    {given : Given} (hnew : switch ∉ given.settings.map (·.1)) :
    given.take (.setting switch value) =
      .ok { given with settings := given.settings ++ [(switch, value)] } := by
  have hlookup : given.settings.lookup switch = none := by
    rw [List.lookup_eq_none_iff]
    intro setting hsetting
    rw [bne_iff_ne]
    rintro rfl
    exact hnew (List.mem_map.2 ⟨setting, hsetting, rfl⟩)
  rw [take, hlookup, haccepts]
  simp

end Given

namespace WrittenSwitch

open Given

/-- The switch is not given yet. -/
def IsNew (given : Given) (written : WrittenSwitch) : Prop :=
  written.switch ∉ given.flags ∧ written.switch ∉ given.settings.map (·.1)

/-- What is given once some switches more are. -/
def addTo (given : Given) (switches : List WrittenSwitch) : Given :=
  { given with
    flags := given.flags ++ switches.filterMap flag?
    settings := given.settings ++ switches.filterMap setting? }

theorem IsForRun.take_piece {written : WrittenSwitch} (h : written.IsForRun) {given : Given}
    (hnew : written.IsNew given) : given.take written.piece = .ok (addTo given [written]) := by
  cases h with
  | named hmem hflag hhelp =>
    refine (take_flag hmem hhelp hnew.1).trans ?_
    simp [addTo, flag?, setting?]
  | lettered hmem hletter hhelp =>
    refine (take_flag hmem hhelp hnew.1).trans ?_
    simp [addTo, flag?, setting?]
  | joined hmem htakes haccepts =>
    refine (take_setting haccepts hnew.2).trans ?_
    simp [addTo, flag?, setting?]
  | apart hmem htakes haccepts =>
    refine (take_setting haccepts hnew.2).trans ?_
    simp [addTo, flag?, setting?]

theorem addTo_cons (given : Given) (written : WrittenSwitch) (switches : List WrittenSwitch) :
    addTo (addTo given [written]) switches = addTo given (written :: switches) := by
  simp only [addTo, List.append_assoc, ← List.filterMap_append, List.singleton_append]

theorem IsNew.addTo {given : Given} {written : WrittenSwitch} (h : written.IsNew given)
    {switches : List WrittenSwitch} (hother : written.switch ∉ switches.map switch) :
    written.IsNew (addTo given switches) := by
  induction switches generalizing given with
  | nil => simpa [WrittenSwitch.addTo] using h
  | cons other switches ih =>
    rw [List.map_cons, List.mem_cons, not_or] at hother
    obtain ⟨hne, hrest⟩ := hother
    rw [← addTo_cons]
    refine ih ?_ hrest
    obtain ⟨hflags, hsettings⟩ := h
    constructor
    · cases other <;> simp_all [WrittenSwitch.addTo, flag?, WrittenSwitch.switch]
    · cases other <;> simp_all [WrittenSwitch.addTo, setting?, WrittenSwitch.switch]

/-- Switches that are written once each are given in the end. -/
theorem foldlM_take {switches : List WrittenSwitch} (h : ∀ written ∈ switches, written.IsForRun)
    (hnodup : (switches.map switch).Nodup) {given : Given}
    (hnew : ∀ written ∈ switches, written.IsNew given) :
    (switches.map piece).foldlM take given = .ok (addTo given switches) := by
  induction switches generalizing given with
  | nil => simp [addTo]; rfl
  | cons written switches ih =>
    obtain ⟨hwritten, hswitches⟩ := List.forall_mem_cons.1 h
    obtain ⟨hfirst, hrest⟩ := List.forall_mem_cons.1 hnew
    rw [List.map_cons, List.nodup_cons] at hnodup
    have hlater : ∀ other ∈ switches, other.IsNew (addTo given [written]) := fun other hother =>
      (hrest other hother).addTo (by
        rw [List.map_singleton, List.mem_singleton]
        exact fun heq => hnodup.1 (heq ▸ List.mem_map_of_mem hother))
    rw [List.map_cons, List.foldlM_cons, hwritten.take_piece hfirst]
    exact (ih hswitches hnodup.2 hlater).trans (congrArg Except.ok (addTo_cons given written switches))

end WrittenSwitch

/-! ## A whole command line -/

/-- The switches around a model are those of an evaluation, each at most once, and the model does not
look like a switch. -/
structure IsRunLine (before : List WrittenSwitch) (model : String) (after : List WrittenSwitch) :
    Prop where
  isForRun : ∀ written ∈ before ++ after, written.IsForRun
  nodup : ((before ++ after).map WrittenSwitch.switch).Nodup
  isWord : isSwitchLike model = false

/-- The arguments that write switches before and after a model. -/
def runLine (before : List WrittenSwitch) (model : String) (after : List WrittenSwitch) :
    List String :=
  before.flatMap WrittenSwitch.arguments ++ model :: after.flatMap WrittenSwitch.arguments

/-- Switches may be left out. -/
theorem IsRunLine.sublist {before after fewerBefore fewerAfter : List WrittenSwitch} {model : String}
    (h : IsRunLine before model after) (hbefore : fewerBefore.Sublist before)
    (hafter : fewerAfter.Sublist after) : IsRunLine fewerBefore model fewerAfter where
  isForRun written hmem := h.isForRun written ((hbefore.append hafter).subset hmem)
  nodup := h.nodup.sublist ((hbefore.append hafter).map _)
  isWord := h.isWord

/-- The switches around a model are given in the end, and the model is what they are given for. -/
theorem IsRunLine.ofArguments {before after : List WrittenSwitch} {model : String}
    (h : IsRunLine before model after) :
    Given.ofArguments runSwitches (runLine before model after) =
      .ok { WrittenSwitch.addTo .nothing (before ++ after) with subject := some model } := by
  obtain ⟨hrun, hnodup, hword⟩ := h
  obtain ⟨hbefore, hafter⟩ := List.forall_mem_append.1 hrun
  rw [List.map_append, List.nodup_append] at hnodup
  obtain ⟨hnodupBefore, hnodupAfter, hdisjoint⟩ := hnodup
  have hpieces : readArguments runSwitches (runLine before model after) =
      before.map WrittenSwitch.piece ++ .word model :: after.map WrittenSwitch.piece := by
    have hrest := WrittenSwitch.readArguments_flatMap hafter []
    rw [List.append_nil, readArguments, List.append_nil] at hrest
    rw [runLine, WrittenSwitch.readArguments_flatMap hbefore, readArguments_word hword, hrest]
  have hnone : ∀ written : WrittenSwitch, written.IsNew .nothing := fun _ => ⟨nofun, nofun⟩
  have hnew : ∀ written ∈ after, written.IsNew
      { WrittenSwitch.addTo .nothing before with subject := some model } := fun written hwritten =>
    (hnone written).addTo fun hmem => hdisjoint _ hmem _ (List.mem_map_of_mem hwritten) rfl
  rw [Given.ofArguments, hpieces, List.foldlM_append,
    WrittenSwitch.foldlM_take hbefore hnodupBefore fun written _ => hnone written]
  refine (WrittenSwitch.foldlM_take hafter hnodupAfter hnew).trans ?_
  simp only [WrittenSwitch.addTo, List.filterMap_append, List.append_assoc]

end Docweave
