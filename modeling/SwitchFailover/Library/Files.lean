import SwitchFailover.Library.Transitions

/-!
# Replacing a file

A new version of a file is written under another name, forced to stable storage and then
renamed over the old one.  Such a protocol is a list of steps on files, and a crash cuts
the list short: what is left is the effect of a beginning of it.  The process may only be
killed; or the power is lost, and then the bytes of each file that were synced are still
there, but those that were not may be gone or anything at all.
-/

namespace SwitchFailover.Library.Files

open SwitchFailover.Library.Transitions

variable {Name Byte : Type}

/-- A file, of which the first `synced` bytes are on stable storage. -/
structure File (Byte : Type) where
  contents : List Byte
  synced : ℕ
  within : synced ≤ contents.length

namespace File

/-- The file is on stable storage as it is. -/
def Settled (file : File Byte) : Prop := file.synced = file.contents.length

def settled (contents : List Byte) : File Byte := ⟨contents, contents.length, le_rfl⟩

theorem settled_settled (contents : List Byte) : (settled contents).Settled := rfl

theorem Settled.eq_settled {file : File Byte} (hsettled : file.Settled) :
    file = settled file.contents := by
  obtain ⟨contents, synced, within⟩ := file
  have hsynced : synced = contents.length := hsettled
  cases hsynced
  rfl

def extend (file : File Byte) (bytes : List Byte) : File Byte where
  contents := file.contents ++ bytes
  synced := file.synced
  within := file.within.trans (by rw [List.length_append]; exact Nat.le_add_right _ _)

end File

/-- The files of a directory by their names. -/
abbrev Directory (Name Byte : Type) := Name → Option (File Byte)

/-- A file is created empty, also where there was one. -/
inductive FileStep (Name Byte : Type)
  | create (name : Name)
  | write (name : Name) (bytes : List Byte)
  | sync (name : Name)
  | remove (name : Name)
  | rename (source target : Name)

def FileStep.Touches : FileStep Name Byte → Name → Prop
  | create name, other => name = other
  | write name _, other => name = other
  | sync name, other => name = other
  | remove name, other => name = other
  | rename source target, other => source = other ∨ target = other

/-! ## Staging -/

/-- Pieces are written one after the other while there is room.  A piece that is missing
ends it, and so does one that does not fit, after what does. -/
def writeAll (name : Name) : ℕ → List (Option (List Byte)) → Bool × List (FileStep Name Byte)
  | _, [] => (true, [])
  | _, none :: _ => (false, [])
  | room, some piece :: rest =>
      if room < piece.length then (false, [.write name (piece.take room)])
      else
        let (complete, steps) := writeAll name (room - piece.length) rest
        (complete, .write name piece :: steps)

/-- A new file is written and forced to stable storage. -/
def stage (name : Name) (room : ℕ) (forced : Bool) (pieces : List (Option (List Byte))) :
    Bool × List (FileStep Name Byte) :=
  let (complete, writes) := writeAll name room pieces
  if complete && forced then (true, .create name :: (writes ++ [.sync name]))
  else (false, .create name :: writes)

theorem writeAll_touches {name other : Name} (hother : name ≠ other) (room : ℕ)
    (pieces : List (Option (List Byte))) :
    ∀ step ∈ (writeAll name room pieces).2, ¬step.Touches other := by
  induction pieces generalizing room with
  | nil =>
    intro step hstep
    cases hstep
  | cons piece rest ih =>
    cases piece with
    | none =>
      intro step hstep
      cases hstep
    | some piece =>
      rw [writeAll]
      split_ifs with hshort
      · intro step hstep
        rw [List.mem_singleton.mp hstep]
        exact hother
      · intro step hstep
        rcases List.mem_cons.mp hstep with rfl | hlater
        · exact hother
        · exact ih _ step hlater

theorem stage_touches {name other : Name} (hother : name ≠ other) (room : ℕ) (forced : Bool)
    (pieces : List (Option (List Byte))) :
    ∀ step ∈ (stage name room forced pieces).2, ¬step.Touches other := by
  have hwrites := writeAll_touches hother room pieces
  rw [stage]
  dsimp only
  split_ifs with hok
  · intro step hstep
    rcases List.mem_cons.mp hstep with rfl | hstep
    · exact hother
    · rcases List.mem_append.mp hstep with hstep | hstep
      · exact hwrites step hstep
      · rw [List.mem_singleton.mp hstep]
        exact hother
  · intro step hstep
    rcases List.mem_cons.mp hstep with rfl | hstep
    · exact hother
    · exact hwrites step hstep

/-! ## What a crash leaves -/

/-- What may be left of a file when the power is lost. -/
def Survives : Option (File Byte) → Option (File Byte) → Prop
  | none, after => after = none
  | some file, after => ∃ contents, after = some (.settled contents) ∧
      file.contents.take file.synced <+: contents ∧ contents.length ≤ file.contents.length

def PowerLost (files after : Directory Name Byte) : Prop :=
  ∀ name, Survives (files name) (after name)

/-- There is no such file, or it is on stable storage as it is. -/
def AtRest (file : Option (File Byte)) : Prop := ∀ present, file = some present → present.Settled

theorem Survives.eq_of_atRest {file after : Option (File Byte)} (hsurvives : Survives file after)
    (hrest : AtRest file) : after = file := by
  cases file with
  | none => exact hsurvives
  | some file =>
    have hsettled := hrest file rfl
    obtain ⟨contents, rfl, hkept, hlength⟩ := hsurvives
    have hall : file.contents.take file.synced = file.contents := by
      rw [show file.synced = file.contents.length from hsettled, List.take_length]
    rw [hall] at hkept
    rw [← hkept.eq_of_length_le hlength, ← hsettled.eq_settled]

/-- A crash comes upon the files: the process is killed and they stay as they stand, or the
power is lost.  A previous version can be expected to outlast the power only if it was on
stable storage. -/
def Crashed (previous : Option (File Byte)) (files after : Directory Name Byte) : Prop :=
  after = files ∨ PowerLost files after ∧ AtRest previous

theorem Crashed.eq_previous {previous : Option (File Byte)} {files after : Directory Name Byte}
    {target : Name} (hcrashed : Crashed previous files after)
    (htarget : files target = previous) : after target = previous := by
  rcases hcrashed with rfl | ⟨hlost, hrest⟩
  · exact htarget
  · have hsurvives := hlost target
    rw [htarget] at hsurvives
    exact hsurvives.eq_of_atRest hrest

theorem Crashed.eq_settled {previous : Option (File Byte)} {files after : Directory Name Byte}
    {target : Name} {contents : List Byte} (hcrashed : Crashed previous files after)
    (htarget : files target = some (.settled contents)) :
    after target = some (.settled contents) := by
  refine Crashed.eq_previous ?_ htarget
  refine hcrashed.imp_right fun hlost => ⟨hlost.1, ?_⟩
  intro present hpresent
  cases hpresent
  exact File.settled_settled contents

/-! ## Effects -/

variable [DecidableEq Name] {files : Directory Name Byte} {name : Name}

def perform (files : Directory Name Byte) : FileStep Name Byte → Directory Name Byte
  | .create name => Function.update files name (some (.settled []))
  | .write name bytes => Function.update files name ((files name).map fun file => file.extend bytes)
  | .sync name =>
      Function.update files name ((files name).map fun file => .settled file.contents)
  | .remove name => Function.update files name none
  | .rename source target =>
      Function.update (Function.update files target (files source)) source none

theorem perform_create (files : Directory Name Byte) (name : Name) :
    perform files (.create name) name = some (.settled []) :=
  Function.update_self _ _ _

theorem perform_write (files : Directory Name Byte) (name : Name) (bytes : List Byte) :
    perform files (.write name bytes) name = (files name).map fun file => file.extend bytes :=
  Function.update_self _ _ _

theorem perform_sync (files : Directory Name Byte) (name : Name) :
    perform files (.sync name) name = (files name).map fun file => .settled file.contents :=
  Function.update_self _ _ _

theorem perform_rename {source target : Name} (hother : source ≠ target)
    (files : Directory Name Byte) :
    perform files (.rename source target) target = files source := by
  rw [perform, Function.update_of_ne hother.symm, Function.update_self]

/-! ## Steps elsewhere -/

theorem perform_of_not_touches {step : FileStep Name Byte} (helsewhere : ¬step.Touches name) :
    perform files step name = files name := by
  cases step with
  | create other => exact Function.update_of_ne (Ne.symm helsewhere) _ _
  | write other bytes => exact Function.update_of_ne (Ne.symm helsewhere) _ _
  | sync other => exact Function.update_of_ne (Ne.symm helsewhere) _ _
  | remove other => exact Function.update_of_ne (Ne.symm helsewhere) _ _
  | rename source target =>
    obtain ⟨hsource, htarget⟩ := not_or.mp helsewhere
    rw [perform, Function.update_of_ne (Ne.symm hsource), Function.update_of_ne (Ne.symm htarget)]

theorem run_of_not_touches {steps : List (FileStep Name Byte)}
    (helsewhere : ∀ step ∈ steps, ¬step.Touches name) (files : Directory Name Byte) :
    run perform files steps name = files name := by
  induction steps generalizing files with
  | nil => rfl
  | cons step steps ih =>
    rw [run_cons, ih fun other hother => helsewhere other (List.mem_cons_of_mem _ hother)]
    exact perform_of_not_touches (helsewhere step List.mem_cons_self)

/-! ## Effects of staging and publishing -/

theorem writeAll_spec {room : ℕ} {pieces : List (Option (List Byte))}
    (hcomplete : (writeAll name room pieces).1 = true) {file : File Byte}
    (hfile : files name = some file) :
    ∃ (written : List (List Byte)) (extended : File Byte), pieces = written.map some ∧
      run perform files (writeAll name room pieces).2 name = some extended ∧
      extended.contents = file.contents ++ written.flatten := by
  induction pieces generalizing room files file with
  | nil => exact ⟨[], file, rfl, hfile, (List.append_nil _).symm⟩
  | cons piece rest ih =>
    cases piece with
    | none => cases hcomplete
    | some piece =>
      rw [writeAll] at hcomplete ⊢
      split_ifs at hcomplete ⊢ with hshort
      have hnext : perform files (.write name piece) name = some (file.extend piece) := by
        rw [perform_write, hfile, Option.map_some]
      obtain ⟨written, extended, rfl, hrun, hcontents⟩ := ih hcomplete hnext
      refine ⟨piece :: written, extended, rfl, hrun, ?_⟩
      rw [hcontents, List.flatten_cons, ← List.append_assoc]
      rfl

/-- A file that was staged has all the pieces, on stable storage. -/
theorem stage_spec {room : ℕ} {forced : Bool} {pieces : List (Option (List Byte))}
    (hstaged : (stage name room forced pieces).1 = true) (files : Directory Name Byte) :
    ∃ written : List (List Byte), pieces = written.map some ∧
      run perform files (stage name room forced pieces).2 name =
        some (.settled written.flatten) := by
  rw [stage] at hstaged ⊢
  dsimp only at hstaged ⊢
  split_ifs at hstaged ⊢ with hok
  obtain ⟨written, extended, hpieces, hrun, hcontents⟩ :=
    writeAll_spec (Bool.and_eq_true_iff.mp hok).1 (perform_create files name)
  refine ⟨written, hpieces, ?_⟩
  rw [run_cons, run_append, run_cons, run_nil, perform_sync, hrun, Option.map_some, hcontents]
  rfl

/-- Wherever the steps are cut short, the file is as it was or is the new one. -/
def AllOrNothing (files : Directory Name Byte) (target : Name) (contents : List Byte)
    (steps : List (FileStep Name Byte)) : Prop :=
  ∀ done, done <+: steps →
    run perform files done target = files target ∨
      run perform files done target = some (.settled contents)

section Publish

variable {staging target : Name} {contents : List Byte}
  {steps : List (FileStep Name Byte)}

theorem run_of_beginning {done : List (FileStep Name Byte)}
    (helsewhere : ∀ step ∈ steps, ¬step.Touches target) (hdone : done <+: steps) :
    run perform files done target = files target :=
  run_of_not_touches (fun step hstep => helsewhere step (hdone.subset hstep)) files

theorem allOrNothing_of_not_touches (helsewhere : ∀ step ∈ steps, ¬step.Touches target) :
    AllOrNothing files target contents steps :=
  fun _ hdone => Or.inl (run_of_beginning helsewhere hdone)

theorem run_rename (hother : staging ≠ target)
    (hstaged : run perform files steps staging = some (.settled contents)) :
    run perform files (steps ++ [.rename staging target]) target = some (.settled contents) := by
  rw [run_append, run_cons, run_nil, perform_rename hother, hstaged]

theorem allOrNothing_rename (helsewhere : ∀ step ∈ steps, ¬step.Touches target)
    (hother : staging ≠ target)
    (hstaged : run perform files steps staging = some (.settled contents)) :
    AllOrNothing files target contents (steps ++ [.rename staging target]) := by
  intro done hdone
  rcases List.prefix_concat_iff.mp hdone with rfl | hbefore
  · exact Or.inr (run_rename hother hstaged)
  · exact allOrNothing_of_not_touches helsewhere done hbefore

theorem AllOrNothing.crashed (hsteps : AllOrNothing files target contents steps)
    {done : List (FileStep Name Byte)} (hdone : done <+: steps) {after : Directory Name Byte}
    (hcrashed : Crashed (files target) (run perform files done) after) :
    after target = files target ∨ after target = some (.settled contents) :=
  (hsteps done hdone).imp hcrashed.eq_previous hcrashed.eq_settled

end Publish

end SwitchFailover.Library.Files
