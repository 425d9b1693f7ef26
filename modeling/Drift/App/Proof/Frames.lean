import Drift.App.Frames
import Drift.Lib.Transition
import Mathlib.Logic.Equiv.List
import Mathlib.Tactic.Common

/-!
# Frames in memory and on disk

A change whose write fails stays in memory, where the same call finds it and writes nothing. So the file
falls behind at the first change that is not written, unless the file happened to hold that change already
or the frame is not equal to itself (`kept_iff`).
-/

namespace Drift.App

open Drift.Profiles (CommandError WriteFailure)

namespace FrameStore

variable {α : Type} {json : FrameJson α}

theorem inStep_written (frames : Frames α) : InStep json ⟨some (json.toText frames), frames⟩ := .inr rfl

theorem inStep_ofFile (json : FrameJson α) (file : Option String) : InStep json (ofFile json file) :=
  .inl rfl

/-- With a JSON that reads back what it writes, a file in step is one that reads as the frames. -/
theorem inStep_iff_load {s : FrameStore α} (hjson : json.ReadsBack s.frames) :
    InStep json s ↔ load json s.file = s.frames := by
  refine ⟨fun h => ?_, .inl⟩
  rcases h with hload | hfile
  · exact hload
  · rw [hfile, load, Option.bind_some, hjson]
    rfl

theorem ofList_toList (frames : Frames α) : Std.ExtTreeMap.ofList frames.toList = frames := by
  refine Std.ExtTreeMap.ext_getElem? fun {key} => ?_
  cases h : frames[key]? with
  | some frame =>
      exact Std.ExtTreeMap.getElem?_ofList_of_mem Std.ReflCmp.compare_self
        Std.ExtTreeMap.distinct_keys_toList (Std.ExtTreeMap.mem_toList_iff_getElem?_eq_some.mpr h)
  | none =>
      refine Std.ExtTreeMap.getElem?_ofList_of_contains_eq_false ?_
      rw [Std.ExtTreeMap.map_fst_toList_eq_keys]
      simpa using h

variable [BEq α] {s : FrameStore α}

/-- After a call that succeeds the file holds the frames. One that fails succeeds when it is repeated
without a failure, and then its change is in the frames and in the file. -/
def Kept (json : FrameJson α)
    (st : Transition.Step (FrameStore α) (FrameCall α × Option WriteFailure) (Except CommandError Unit)) :
    Prop :=
  ∀ result ∈ st.outs,
    match result with
    | .ok _ => InStep json st.after
    | .error _ =>
      let again := st.after.call json (st.input.1, none)
      again.2 = .ok () ∧ InStep json again.1 ∧ st.input.1.Stored again.1.frames

/-- A call that changes nothing finds the file in step. A change is written, or the file holds it already,
or the repeated call would find something to change again. -/
def Settled (json : FrameJson α) (s : FrameStore α) (c : FrameCall α × Option WriteFailure) : Prop :=
  match c.1.change s.frames with
  | none => InStep json s
  | some frames =>
    c.2 = none ∨ InStep json { s with frames := frames } ∨ (c.1.change frames).isSome

/-- A change is written, or the file holds it already. -/
def Written (json : FrameJson α) (s : FrameStore α) (c : FrameCall α × Option WriteFailure) : Prop :=
  ∀ frames ∈ c.1.change s.frames, c.2 = none ∨ InStep json { s with frames := frames }

theorem stored_of_change {c : FrameCall α} {frames frames' : Frames α}
    (h : c.change frames = some frames') : c.Stored frames' := by
  cases c with
  | set key frame =>
      simp only [FrameCall.change] at h
      split at h
      · cases h
      · cases h
        exact Std.ExtTreeMap.getElem?_insert_self
  | remove key =>
      simp only [FrameCall.change] at h
      split at h
      · cases h
      · cases h
        exact Std.ExtTreeMap.getElem?_erase_self

/-- A call that is repeated finds its change in the frames, unless the frame differs from itself. -/
theorem change_again {c : FrameCall α} (hc : c.Reflexive) {frames frames' : Frames α}
    (h : c.change frames = some frames') : c.change frames' = none := by
  have hstored := stored_of_change h
  cases c with
  | set key frame =>
      simp only [FrameCall.Stored] at hstored
      simp only [FrameCall.change, hstored]
      exact if_pos hc
  | remove key =>
      simp only [FrameCall.Stored] at hstored
      simp only [FrameCall.change, hstored]
      rfl

/-- **Step lemma.** -/
theorem kept_step_iff (json : FrameJson α) (s : FrameStore α)
    (c : FrameCall α × Option WriteFailure) :
    Kept json ⟨s, c, (s.step json c).2, (s.step json c).1⟩ ↔ Settled json s c := by
  obtain ⟨c, failure⟩ := c
  simp only [Kept, Settled, step, List.mem_singleton, forall_eq, call_eq]
  cases hchange : c.change s.frames with
  | none => exact Iff.rfl
  | some frames =>
      cases failure with
      | none => exact iff_of_true (inStep_written frames) (.inl rfl)
      | some failure =>
          simp only [write]
          cases hagain : c.change frames with
          | none =>
              have hstored := stored_of_change hchange
              simp [hstored]
          | some frames' =>
              have hstored := stored_of_change hagain
              simp [hstored, inStep_written]

/-- From a file in step, a call with a frame that is equal to itself is settled if its change is written, and
then the file is in step again. -/
theorem settled_iff_written {c : FrameCall α × Option WriteFailure} (hc : c.1.Reflexive)
    (hs : InStep json s) :
    (Settled json s c ↔ Written json s c) ∧ (Settled json s c → InStep json (s.step json c).1) := by
  obtain ⟨c, failure⟩ := c
  simp only [Settled, Written, step, call_eq]
  cases hchange : c.change s.frames with
  | none => exact ⟨iff_of_true hs (fun _ h => by cases h), fun h => h⟩
  | some frames =>
      have hagain := change_again hc hchange
      cases failure with
      | none => exact ⟨iff_of_true (.inl rfl) fun _ _ => .inl rfl, fun _ => inStep_written frames⟩
      | some failure => simp [hagain, write]

/-! ### Runs -/

/-- The steps of a run from a file. -/
def history (json : FrameJson α) (file : Option String)
    (calls : List (FrameCall α × Option WriteFailure)) :
    List (Transition.Step (FrameStore α) (FrameCall α × Option WriteFailure) (Except CommandError Unit)) :=
  (Transition.run (Transition.recorded (step json)) (ofFile json file) calls).2

/-- A condition on the store before each call of a run and on the call. -/
def Throughout (json : FrameJson α) (P : FrameStore α → FrameCall α × Option WriteFailure → Prop)
    (file : Option String) (calls : List (FrameCall α × Option WriteFailure)) : Prop :=
  Transition.Along (Transition.recorded (step json)) (fun _ _ => ()) (fun s _ c => P s c)
    (ofFile json file) () calls

/-- **The file keeps up with the frames as long as every change is written.** A change whose write fails
may still be one that the file holds already, or of a frame that differs from itself. The file is in step
when it reads as the frames, if the JSON reads back what it writes. -/
theorem kept_iff (json : FrameJson α) (file : Option String)
    (calls : List (FrameCall α × Option WriteFailure)) :
    ((∀ st ∈ history json file calls, Kept json st) ↔ Throughout json (Settled json) file calls) ∧
      ((∀ c ∈ calls, c.1.Reflexive) →
        ((∀ st ∈ history json file calls, Kept json st) ↔
          Throughout json (Written json) file calls)) ∧
      ∀ s : FrameStore α, json.ReadsBack s.frames → (InStep json s ↔ load json s.file = s.frames) := by
  have hsettled : (∀ st ∈ history json file calls, Kept json st) ↔
      Throughout json (Settled json) file calls := by
    rw [← Transition.holds_iff_forall ()]
    refine Transition.run_holds_iff (fun _ _ => True) (fun s m c _ => ⟨?_, fun _ => trivial⟩) trivial calls
    exact (and_iff_left trivial).trans (kept_step_iff json s c)
  refine ⟨hsettled, fun hreflexive => hsettled.trans ?_, fun s => inStep_iff_load⟩
  refine Transition.along_congr (fun s _ => InStep json s) (fun s m c hc hs => ?_) (inStep_ofFile json file)
  exact settled_iff_written (hreflexive c hc) hs

/-! ### A text that reads back -/

def codeOf (entry : String × Frame Nat) : List Nat × List Nat :=
  (entry.1.toList.map Char.toNat, [entry.2.x, entry.2.y, entry.2.width, entry.2.height])

def entryOf : List Nat × List Nat → String × Frame Nat
  | (key, [x, y, width, height]) => (String.ofList (key.map Char.ofNat), ⟨x, y, width, height⟩)
  | _ => ("", ⟨0, 0, 0, 0⟩)

theorem entryOf_codeOf (entry : String × Frame Nat) : entryOf (codeOf entry) = entry := by
  simp [entryOf, codeOf, Function.comp_def]

/-- The text has as many characters as the number that the entries are coded by. -/
def counted : FrameJson Nat where
  toText frames := String.ofList (List.replicate (Encodable.encode (frames.toList.map codeOf)) '.')
  ofText text :=
    (Encodable.decode text.length : Option (List (List Nat × List Nat))).map
      fun codes => Std.ExtTreeMap.ofList (codes.map entryOf)

theorem readsBack_counted (frames : Frames Nat) : counted.ReadsBack frames := by
  simp [FrameJson.ReadsBack, counted, Function.comp_def, entryOf_codeOf, ofList_toList]

/-- Two frames are set, and the second write fails. -/
theorem kept_iff_two :
    let calls : List (FrameCall Nat × Option WriteFailure) :=
      [(.set "connections" ⟨0, 0, 800, 600⟩, none), (.set "a" ⟨9, 9, 800, 600⟩, some (.rename "denied"))]
    (∀ c ∈ calls, c.1.Reflexive) ∧
      ((∀ st ∈ history counted none calls, Kept counted st) ↔
        Throughout counted (Written counted) none calls) ∧
      ∀ s, InStep counted s ↔ load counted s.file = s.frames := by
  intro calls
  have hreflexive : ∀ c ∈ calls, c.1.Reflexive := by
    simp only [calls, List.forall_mem_cons]
    exact ⟨rfl, rfl, List.forall_mem_nil _⟩
  obtain ⟨-, hwritten, hload⟩ := kept_iff counted none calls
  exact ⟨hreflexive, hwritten hreflexive, fun s => hload s (readsBack_counted s.frames)⟩

/-- The frame of a window is set, its write fails, and the call is repeated: it succeeds, without a file. -/
theorem lost_after_failure :
    ¬ ∀ (json : FrameJson Nat), (∀ frames, json.ReadsBack frames) →
      ∀ (file : Option String) (calls : List (FrameCall Nat × Option WriteFailure)),
        ∀ st ∈ history json file calls, Kept json st := by
  intro h
  let frame : Frame Nat := ⟨0, 0, 800, 600⟩
  let lost : FrameStore Nat := ⟨none, (∅ : Frames Nat).insert "connections" frame⟩
  have hfirst : (ofFile counted none).call counted
      (.set "connections" frame, some (.createDir "denied")) = (lost, .error (.storage "denied")) := by
    simp [call, set, ofFile, load, write, WriteFailure.message, lost]
  have hsecond : lost.call counted (.set "connections" frame, none) = (lost, .ok ()) := by
    have hsame : (frame == frame) = true := by decide
    simp [call, set, lost, hsame]
  have hhistory : history counted none [(.set "connections" frame, some (.createDir "denied")),
      (.set "connections" frame, none)] =
        [⟨ofFile counted none, (.set "connections" frame, some (.createDir "denied")),
          [.error (.storage "denied")], lost⟩,
        ⟨lost, (.set "connections" frame, none), [.ok ()], lost⟩] := by
    simp only [history, Transition.run, Transition.recorded, step, hfirst, hsecond, List.append_nil,
      List.singleton_append]
  have hkept := h counted readsBack_counted none [(.set "connections" frame, some (.createDir "denied")),
    (.set "connections" frame, none)]
  rw [hhistory] at hkept
  have hinStep : InStep counted lost :=
    hkept _ (List.mem_cons_of_mem _ List.mem_cons_self) (.ok ()) List.mem_cons_self
  -- Without a file no frame is read.
  exact Std.ExtTreeMap.insert_ne_empty ((inStep_iff_load (readsBack_counted _)).mp hinStep).symm

end FrameStore

end Drift.App
