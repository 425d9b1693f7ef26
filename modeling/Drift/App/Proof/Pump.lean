import Drift.App.Pump
import Drift.Lib.Transition

/-!
# Sessions know the pasteboard

Between ticks the sessions that the pump remembers know the pasteboard as it was when the pump last looked,
and the others were never told anything (`Fanout.Inv`). After a tick every session knows the pasteboard as
it is, as far as its preference allows (`sessions_know_pasteboard`).
-/

namespace Drift.App

open Clipboard

/-! ### Levels -/

def allowed (contents : ClipboardContents) (prefs : ClipboardPrefs) : ClipboardContents :=
  ⟨contents.items.filter fun item => item.kind.allowedBy prefs⟩

theorem rank_le_mostPermissive {levels : List ClipboardPrefs} {level : ClipboardPrefs}
    (h : level ∈ levels) : rank level ≤ rank (mostPermissive levels) := by
  have hbest : ∀ (levels : List ClipboardPrefs) (best : ClipboardPrefs),
      let top := levels.foldl (fun best level => if rank best ≤ rank level then level else best) best
      rank best ≤ rank top ∧ ∀ level ∈ levels, rank level ≤ rank top := by
    intro levels
    induction levels with
    | nil => exact fun best => ⟨Nat.le_refl _, fun _ hnone => (List.not_mem_nil hnone).elim⟩
    | cons first rest ih =>
        intro best
        obtain ⟨hbest, hrest⟩ := ih (if rank best ≤ rank first then first else best)
        have hboth : rank best ≤ rank (if rank best ≤ rank first then first else best) ∧
            rank first ≤ rank (if rank best ≤ rank first then first else best) := by
          by_cases hle : rank best ≤ rank first
          · rw [if_pos hle]
            exact ⟨hle, Nat.le_refl _⟩
          · rw [if_neg hle]
            exact ⟨Nat.le_refl _, Nat.le_of_not_le hle⟩
        refine ⟨hboth.1.trans hbest, fun level hlevel => ?_⟩
        rcases List.mem_cons.mp hlevel with rfl | hlevel
        · exact hboth.2.trans hbest
        · exact hrest level hlevel
  exact (hbest levels .off).2 level h

theorem allowed_read (reps : BitmapReps) (pb : Pasteboard) {prefs level : ClipboardPrefs}
    (hle : rank prefs ≤ rank level) (hprefs : prefs ≠ .off) :
    allowed (pb.read reps level) prefs = pb.read reps prefs := by
  have htext : (pb.text.map ClipboardItem.text).toList.filter
      (fun item => item.kind.allowedBy prefs) = (pb.text.map ClipboardItem.text).toList := by
    cases pb.text with
    | none => rfl
    | some t => cases prefs <;> first | rfl | exact absurd rfl hprefs
  cases prefs with
  | off => exact absurd rfl hprefs
  | text =>
      cases level with
      | off => exact absurd hle (by decide)
      | text => simpa [allowed, Pasteboard.read] using htext
      | textAndImages =>
          simp only [allowed, Pasteboard.read, reduceCtorEq, if_false, if_true, List.filter_append,
            htext, List.append_nil]
          cases pb.png with
          | some png => simp [ClipboardItem.kind, FormatKind.allowedBy, FormatKind.isImage]
          | none =>
              cases pb.tiff with
              | none => simp
              | some tiff =>
                  cases reps.toPng tiff <;>
                    simp [ClipboardItem.kind, FormatKind.allowedBy, FormatKind.isImage]
  | textAndImages =>
      cases level with
      | off => exact absurd hle (by decide)
      | text => exact absurd hle (by decide)
      | textAndImages =>
          unfold allowed
          congr 1
          refine List.filter_eq_self.mpr fun item _ => ?_
          cases item <;> rfl

/-! ### Deliveries -/

namespace Fanout

variable {reps : BitmapReps} {s : Fanout} {arrives : String → Bool}

def ground (s : Fanout) : Pasteboard × List LiveSession × Nat × Option ClipboardPump :=
  (s.pb, s.sessions, s.nextGeneration, s.pump)

theorem ground_deliver (arrives : String → Bool) (s : Fanout) (out : PumpOut) :
    (deliver arrives s out).ground = s.ground := by
  cases out with
  | read level => rfl
  | send window contents =>
      unfold deliver
      simp only
      split
      · rfl
      · split <;> rfl

theorem find?_window {sessions : List LiveSession} (hwindows : (sessions.map (·.window)).Nodup)
    {session : LiveSession} (h : session ∈ sessions) :
    sessions.find? (fun other => other.window = session.window) = some session := by
  induction sessions with
  | nil => exact (List.not_mem_nil h).elim
  | cons first rest ih =>
      obtain ⟨hfirst, hrest⟩ := List.nodup_cons.mp hwindows
      rcases List.mem_cons.mp h with rfl | h
      · simp
      · have hne : first.window ≠ session.window := by
          intro heq
          exact hfirst (List.mem_map.mpr ⟨session, h, heq.symm⟩)
        rw [List.find?_cons, decide_eq_false hne]
        exact ih hrest h

/-- Contents sent to a session: it knows them if they arrive, and no other session learns anything. -/
theorem deliver_send (arrives : String → Bool) (hwindows : (s.sessions.map (·.window)).Nodup)
    {session : LiveSession} (h : session ∈ s.sessions) (contents : ClipboardContents) :
    let s' := deliver arrives s (.send session.window contents)
    (s'.failed session.key = false → s'.told session.key = some contents) ∧
      ∀ key ≠ session.key, s'.told key = s.told key ∧ s'.failed key = s.failed key := by
  unfold deliver
  simp only [find?_window hwindows h]
  by_cases harrives : arrives session.window = true
  · rw [if_pos harrives]
    exact ⟨fun _ => Function.update_self .., fun key hne =>
      ⟨Function.update_of_ne hne .., Function.update_of_ne hne ..⟩⟩
  · rw [if_neg harrives]
    refine ⟨fun hfailed => ?_, fun key hne => ⟨rfl, Function.update_of_ne hne ..⟩⟩
    simp at hfailed

theorem deliver_all (arrives : String → Bool) (hwindows : (s.sessions.map (·.window)).Nodup)
    (targets : List LiveSession) (htargets : ∀ session ∈ targets, session ∈ s.sessions)
    (contents : ClipboardContents) :
    let s' := (targets.map fun session => .send session.window contents).foldl (deliver arrives) s
    s'.ground = s.ground ∧
      (∀ session ∈ targets, s'.failed session.key = false → s'.told session.key = some contents) ∧
      (∀ key, (s.failed key = false → s.told key = some contents) →
        s'.failed key = false → s'.told key = some contents) ∧
      ∀ key, (∀ session ∈ targets, session.key ≠ key) →
        s'.told key = s.told key ∧ s'.failed key = s.failed key := by
  induction targets generalizing s with
  | nil => exact ⟨rfl, fun _ h => (List.not_mem_nil h).elim, fun _ h => h, fun _ _ => ⟨rfl, rfl⟩⟩
  | cons target targets ih =>
      have hground := ground_deliver arrives s (.send target.window contents)
      have hsessions : (deliver arrives s (.send target.window contents)).sessions = s.sessions :=
        congrArg (·.2.1) hground
      obtain ⟨hknows, hothers⟩ := deliver_send arrives hwindows
        (htargets target List.mem_cons_self) contents
      obtain ⟨hground', hall, hkeep, hrest⟩ := ih (hsessions ▸ hwindows) fun session hsession =>
        hsessions ▸ htargets session (List.mem_cons_of_mem target hsession)
      refine ⟨hground'.trans hground, ?_, ?_, ?_⟩
      · intro session hsession
        rcases List.mem_cons.mp hsession with rfl | hsession
        · exact hkeep _ hknows
        · exact hall session hsession
      · intro key hkey
        apply hkeep
        by_cases heq : key = target.key
        · exact heq ▸ hknows
        · rw [(hothers key heq).1, (hothers key heq).2]
          exact hkey
      · intro key hkey
        have hne : key ≠ target.key := fun heq => hkey target List.mem_cons_self heq.symm
        obtain ⟨htold, hfailed⟩ := hrest key fun session hsession =>
          hkey session (List.mem_cons_of_mem target hsession)
        exact ⟨htold.trans (hothers key hne).1, hfailed.trans (hothers key hne).2⟩

/-! ### Between ticks -/

/-- The session was told everything that it may have. -/
def Knows (reps : BitmapReps) (s : Fanout) (session : LiveSession) : Prop :=
  s.failed session.key = false →
    allowed ((s.told session.key).getD .empty) session.clipboard = s.pb.read reps session.clipboard

structure Inv (reps : BitmapReps) (s : Fanout) : Prop where
  windows : (s.sessions.map (·.window)).Nodup
  generations : ∀ session ∈ s.sessions, session.generation ≤ s.nextGeneration
  unborn : ∀ key : SessionKey, s.nextGeneration < key.2 → s.told key = none ∧ s.failed key = false
  unseeded : ∀ session ∈ s.sessions, session.key ∉ s.pump.elim ∅ (·.seeded) →
    s.told session.key = none ∧ s.failed session.key = false
  seeded : ∀ pump, s.pump = some pump → ∀ key ∈ pump.seeded, key.2 ≤ s.nextGeneration
  seen : ∀ pump, s.pump = some pump → pump.watcher.lastSeen ≤ s.pb.changeCount
  knows : ∀ pump, s.pump = some pump → pump.watcher.lastSeen = s.pb.changeCount →
    ∀ session ∈ s.sessions, session.clipboard ≠ .off → session.key ∈ pump.seeded →
      Knows reps s session

theorem inv_new (reps : BitmapReps) (pb : Pasteboard) : Inv reps (new pb) where
  windows := List.nodup_nil
  generations _ h := (List.not_mem_nil h).elim
  unborn _ _ := ⟨rfl, rfl⟩
  unseeded _ h := (List.not_mem_nil h).elim
  seeded _ h := nomatch h
  seen _ h := nomatch h
  knows _ h := nomatch h

theorem Inv.change (h : Inv reps s) (skipped : Nat) (text : Option String) (png tiff : Option Bytes) :
    Inv reps (s.change skipped text png tiff) where
  windows := h.windows
  generations := h.generations
  unborn := h.unborn
  unseeded := h.unseeded
  seeded := h.seeded
  seen := by
    intro pump hpump
    have hseen := h.seen pump hpump
    simp only [Fanout.change]
    omega
  knows := by
    intro pump hpump hcount
    have hseen := h.seen pump hpump
    simp only [Fanout.change] at hcount
    omega

theorem Inv.ended (h : Inv reps s) (window : String) : Inv reps (s.ended window) where
  windows := h.windows.sublist (List.filter_sublist.map _)
  generations session hsession := h.generations session (List.mem_of_mem_filter hsession)
  unborn := h.unborn
  unseeded session hsession := h.unseeded session (List.mem_of_mem_filter hsession)
  seeded := h.seeded
  seen := h.seen
  knows pump hpump hcount session hsession :=
    h.knows pump hpump hcount session (List.mem_of_mem_filter hsession)

theorem Inv.opened (h : Inv reps s) (window : String) (clipboard : ClipboardPrefs) :
    Inv reps (s.opened window clipboard) := by
  have hended := h.ended window
  have hborn := h.unborn (window, s.nextGeneration + 1) (Nat.lt_succ_self _)
  refine ⟨?_, ?_, ?_, ?_, ?_, h.seen, ?_⟩
  · refine List.nodup_cons.mpr ⟨fun hmem => ?_, hended.windows⟩
    obtain ⟨session, hsession, hwindow⟩ := List.mem_map.mp hmem
    exact of_decide_eq_true (List.mem_filter.mp hsession).2 hwindow
  · intro session hsession
    rcases List.mem_cons.mp hsession with rfl | hsession
    · exact Nat.le_refl _
    · exact Nat.le_succ_of_le (hended.generations session hsession)
  · exact fun key hkey => h.unborn key (Nat.lt_of_succ_lt hkey)
  · intro session hsession hkey
    rcases List.mem_cons.mp hsession with rfl | hsession
    · exact hborn
    · exact hended.unseeded session hsession hkey
  · exact fun pump hpump key hkey => Nat.le_succ_of_le (h.seeded pump hpump key hkey)
  · intro pump hpump hcount session hsession hsync hkey
    rcases List.mem_cons.mp hsession with rfl | hsession
    · exact absurd (h.seeded pump hpump _ hkey) (Nat.not_succ_le_self _)
    · exact hended.knows pump hpump hcount session hsession hsync hkey

/-! ### A tick -/

theorem mem_syncing {live : List LiveSession} {session : LiveSession} :
    session ∈ ClipboardPump.syncing live ↔ session ∈ live ∧ session.clipboard ≠ .off := by
  simp [ClipboardPump.syncing]

theorem knows_of_told {session : LiveSession} (hsession : session ∈ s.sessions)
    (hsync : session.clipboard ≠ .off)
    (htold : s.failed session.key = false →
      s.told session.key = some (s.pb.read reps (mostPermissive (s.sessions.map (·.clipboard))))) :
    Knows reps s session := by
  intro hfailed
  rw [htold hfailed]
  exact allowed_read reps s.pb (rank_le_mostPermissive (List.mem_map_of_mem hsession)) hsync

/-- What a tick reads and sends, and why it leaves a session out: it was told before and nothing changed, or
it is new and there is nothing to tell. -/
theorem tick_spec (reps : BitmapReps) (pump : ClipboardPump) (pb : Pasteboard)
    (live : List LiveSession) :
    let level := mostPermissive (live.map (·.clipboard))
    let ticked := pump.tick reps pb live
    ticked.1 = ⟨⟨pb.changeCount⟩, (live.map (·.key)).toFinset⟩ ∧
      ∃ (reads : List PumpOut) (targets : List LiveSession),
        ticked.2 = reads ++ targets.map (fun session => .send session.window (pb.read reps level)) ∧
          (reads = [] ∨ reads = [.read level]) ∧ (∀ session ∈ targets, session ∈ live) ∧
          ∀ session ∈ live, session.clipboard ≠ .off →
            session ∈ targets ∨
              pump.watcher.lastSeen = pb.changeCount ∧ session.key ∈ pump.seeded ∨
              session.key ∉ pump.seeded ∧ pb.read reps level = .empty := by
  intro level ticked
  have hnobody : level = .off → ∀ session ∈ live, session.clipboard = .off := by
    intro hoff session hsession
    have hle := rank_le_mostPermissive (List.mem_map_of_mem (f := (·.clipboard)) hsession)
    change rank session.clipboard ≤ rank level at hle
    rw [hoff] at hle
    cases hprefs : session.clipboard with
    | off => rfl
    | text => rw [hprefs] at hle; exact absurd hle (by decide)
    | textAndImages => rw [hprefs] at hle; exact absurd hle (by decide)
  have hsnapshot : (PasteboardWatcher.snapshot reps pb level).contents = pb.read reps level := by
    unfold PasteboardWatcher.snapshot
    by_cases hoff : level = .off
    · simp [hoff, Pasteboard.read]
    · simp [hoff]
  have hfresh : ∀ session, session ∈ (ClipboardPump.syncing live).filter
      (fun session => session.key ∉ pump.seeded) ↔
        (session ∈ live ∧ session.clipboard ≠ .off) ∧ session.key ∉ pump.seeded := by
    intro session
    rw [List.mem_filter, mem_syncing, decide_eq_true_iff]
  simp only [ticked, ClipboardPump.tick, PasteboardWatcher.poll]
  by_cases hcount : pb.changeCount = pump.watcher.lastSeen
  · rw [if_pos hcount]
    have hwatcher : pump.watcher = ⟨pb.changeCount⟩ := by rw [hcount]
    simp only
    by_cases hnone : ((ClipboardPump.syncing live).filter
        (fun session => session.key ∉ pump.seeded)).isEmpty = true
    · rw [if_pos hnone]
      refine ⟨congrArg (ClipboardPump.mk · _) hwatcher, [], [], rfl, .inl rfl,
        fun _ h => (List.not_mem_nil h).elim, ?_⟩
      intro session hsession hsync
      refine .inr (.inl ⟨hcount.symm, ?_⟩)
      by_contra hkey
      rw [List.isEmpty_iff] at hnone
      exact List.not_mem_nil (hnone ▸ (hfresh session).mpr ⟨⟨hsession, hsync⟩, hkey⟩)
    · rw [if_neg hnone]
      have hreads : (if level = .off then [] else [PumpOut.read level]) = [] ∨
          (if level = .off then [] else [PumpOut.read level]) = [.read level] := by
        by_cases hoff : level = .off
        · exact .inl (if_pos hoff)
        · exact .inr (if_neg hoff)
      by_cases hempty : (PasteboardWatcher.snapshot reps pb level).contents.isEmpty = true
      · rw [if_pos hempty]
        refine ⟨congrArg (ClipboardPump.mk · _) hwatcher, _, [], (List.append_nil _).symm, hreads,
          fun _ h => (List.not_mem_nil h).elim, ?_⟩
        intro session hsession hsync
        by_cases hkey : session.key ∈ pump.seeded
        · exact .inr (.inl ⟨hcount.symm, hkey⟩)
        · refine .inr (.inr ⟨hkey, ?_⟩)
          rw [hsnapshot] at hempty
          exact congrArg ClipboardContents.mk (List.isEmpty_iff.mp hempty)
      · rw [if_neg hempty, hsnapshot]
        refine ⟨congrArg (ClipboardPump.mk · _) hwatcher, _, _, rfl, hreads,
          fun session h => ((hfresh session).mp h).1.1, ?_⟩
        intro session hsession hsync
        by_cases hkey : session.key ∈ pump.seeded
        · exact .inr (.inl ⟨hcount.symm, hkey⟩)
        · exact .inl ((hfresh session).mpr ⟨⟨hsession, hsync⟩, hkey⟩)
  · rw [if_neg hcount]
    by_cases hoff : level = .off
    · have hnone : ((ClipboardPump.syncing live).filter
          (fun session => session.key ∉ pump.seeded)).isEmpty = true := by
        rw [List.isEmpty_iff, List.eq_nil_iff_forall_not_mem]
        intro session hsession
        obtain ⟨⟨hlive, hsync⟩, -⟩ := (hfresh session).mp hsession
        exact hsync (hnobody hoff session hlive)
      have hoff' : mostPermissive (live.map (·.clipboard)) = .off := hoff
      simp only [if_pos hoff']
      rw [if_pos hnone]
      refine ⟨rfl, [], [], rfl, .inl rfl, fun _ h => (List.not_mem_nil h).elim, ?_⟩
      exact fun session hsession hsync => absurd (hnobody hoff session hsession) hsync
    · have hoff' : mostPermissive (live.map (·.clipboard)) ≠ .off := hoff
      simp only [if_neg hoff']
      refine ⟨trivial, [.read level], _, rfl, .inr rfl, fun session h => (mem_syncing.mp h).1, ?_⟩
      exact fun session hsession hsync => .inl (mem_syncing.mpr ⟨hsession, hsync⟩)

theorem foldl_deliver_reads {reads : List PumpOut} {level : ClipboardPrefs}
    (h : reads = [] ∨ reads = [.read level]) (s : Fanout) : reads.foldl (deliver arrives) s = s := by
  rcases h with rfl | rfl <;> rfl

/-- **One tick.** Every session knows the pasteboard afterwards, and the pump remembers exactly these
sessions. -/
theorem Inv.tick (h : Inv reps s) (arrives : String → Bool) :
    Inv reps (s.tick reps arrives).1 ∧
      (∀ session ∈ (s.tick reps arrives).1.sessions, session.clipboard ≠ .off →
        Knows reps (s.tick reps arrives).1 session) := by
  obtain ⟨hpump, reads, targets, houts, hreads, htargets, hwhy⟩ :=
    tick_spec reps (s.pump.getD (.new s.pb)) s.pb s.sessions
  set pump := s.pump.getD (.new s.pb) with hpumpDef
  set contents := s.pb.read reps (mostPermissive (s.sessions.map (·.clipboard))) with hcontents
  set start : Fanout := { s with pump := some (pump.tick reps s.pb s.sessions).1 } with hstart
  have hafter : (s.tick reps arrives).1 =
      (targets.map fun session => .send session.window contents).foldl (deliver arrives) start := by
    unfold Fanout.tick
    simp only [← hpumpDef, houts, List.foldl_append, foldl_deliver_reads hreads]
    rfl
  obtain ⟨hground, htold, -, hrest⟩ := deliver_all (s := start) arrives h.windows targets
    htargets contents
  rw [← hafter] at hground htold hrest
  generalize (s.tick reps arrives).1 = s' at hground htold hrest
  obtain ⟨hpb, hsessions, hnext, hpump'⟩ : s'.pb = s.pb ∧ s'.sessions = s.sessions ∧
      s'.nextGeneration = s.nextGeneration ∧
      s'.pump = some ⟨⟨s.pb.changeCount⟩, (s.sessions.map (·.key)).toFinset⟩ := by
    rw [← hpump]
    simpa only [ground, Prod.mk.injEq] using hground
  have hsame : ∀ session ∈ s.sessions, session ∉ targets →
      s'.told session.key = s.told session.key ∧ s'.failed session.key = s.failed session.key := by
    intro session hsession hnot
    refine hrest _ fun target htarget hkey => hnot ?_
    have heq : target = session := List.inj_on_of_nodup_map h.windows (htargets target htarget)
      hsession (congrArg Prod.fst hkey)
    exact heq ▸ htarget
  have hall : ∀ session ∈ s'.sessions, session.clipboard ≠ .off → Knows reps s' session := by
    intro session hsession hsync
    have hlive : session ∈ s.sessions := hsessions ▸ hsession
    have hread : contents = s'.pb.read reps (mostPermissive (s'.sessions.map (·.clipboard))) := by
      rw [hpb, hsessions]
    by_cases htarget : session ∈ targets
    · exact knows_of_told hsession hsync fun hfailed => hread ▸ htold session htarget hfailed
    · obtain ⟨hsameTold, hsameFailed⟩ := hsame session hlive htarget
      unfold Knows
      rw [hsameTold, hsameFailed, hpb]
      rcases hwhy session hlive hsync with hmem | ⟨hcount, hseeded⟩ | ⟨hseeded, hempty⟩
      · exact absurd hmem htarget
      · cases hold : s.pump with
        | none =>
            rw [hpumpDef, hold] at hseeded
            exact absurd hseeded (Finset.notMem_empty _)
        | some old =>
            rw [hpumpDef, hold] at hcount hseeded
            exact h.knows old hold hcount session hlive hsync hseeded
      · intro _
        have hnothing : s.told session.key = none := by
          refine (h.unseeded session hlive ?_).1
          cases hold : s.pump with
          | none => exact Finset.notMem_empty _
          | some old =>
              rw [hpumpDef, hold] at hseeded
              exact hseeded
        have hprefs := allowed_read reps s.pb
          (rank_le_mostPermissive (List.mem_map_of_mem (f := (·.clipboard)) hlive)) hsync
        rw [hnothing, ← hprefs]
        exact (congrArg (allowed · session.clipboard) hempty).symm
  refine ⟨⟨hsessions ▸ h.windows, ?_, ?_, ?_, ?_, ?_, ?_⟩, hall⟩
  · rw [hsessions, hnext]
    exact h.generations
  · intro key hkey
    rw [hnext] at hkey
    obtain ⟨hsameTold, hsameFailed⟩ := hrest key fun target htarget heq => by
      have hle := h.generations target (htargets target htarget)
      rw [← heq] at hkey
      exact absurd hkey (Nat.not_lt.mpr hle)
    rw [hsameTold, hsameFailed]
    exact h.unborn key hkey
  · intro session hsession hkey
    rw [hpump'] at hkey
    exact absurd (List.mem_toFinset.mpr (List.mem_map_of_mem (hsessions ▸ hsession))) hkey
  · intro pump' hpump'' key hkey
    obtain rfl := Option.some.inj (hpump'.symm.trans hpump'')
    obtain ⟨session, hsession, rfl⟩ := List.mem_map.mp (List.mem_toFinset.mp hkey)
    exact hnext ▸ h.generations session hsession
  · intro pump' hpump''
    obtain rfl := Option.some.inj (hpump'.symm.trans hpump'')
    exact hpb ▸ Int.le_refl _
  · exact fun _ _ _ session hsession hsync _ => hall session hsession hsync

def isRead : PumpOut → Bool
  | .read _ => true
  | .send _ _ => false

/-- **Sessions know the pasteboard.** Whatever happened to the pasteboard and the sessions before it, after
a tick every live session that shares the clipboard, and to which the last command did not fail, was last
told the pasteboard as far as its preference allows, and the tick read the pasteboard once at most. -/
theorem sessions_know_pasteboard (reps : BitmapReps) (pb : Pasteboard) (inputs : List Input)
    (arrives : String → Bool) :
    let before := (Transition.run (step reps) (.new pb) inputs).1
    let after := (before.tick reps arrives).1
    (∀ session ∈ after.sessions, session.clipboard ≠ .off → after.failed session.key = false →
      allowed ((after.told session.key).getD .empty) session.clipboard =
        after.pb.read reps session.clipboard) ∧
      ((before.tick reps arrives).2.filter isRead).length ≤ 1 := by
  intro before after
  have hinv : Inv reps before := by
    refine Transition.run_invariant (Inv reps) (fun s input h => ?_) (inv_new reps pb) inputs
    cases input with
    | change skipped text png tiff => exact h.change skipped text png tiff
    | opened window clipboard => exact h.opened window clipboard
    | ended window => exact h.ended window
    | tick arrives => exact (h.tick arrives).1
  refine ⟨(hinv.tick arrives).2, ?_⟩
  obtain ⟨-, reads, targets, houts, hreads, -⟩ :=
    tick_spec reps (before.pump.getD (.new before.pb)) before.pb before.sessions
  have hsends : ∀ contents, (targets.map fun session =>
      PumpOut.send session.window contents).filter isRead = [] := by
    intro contents
    refine List.filter_eq_nil_iff.mpr fun out hout => ?_
    obtain ⟨session, -, rfl⟩ := List.mem_map.mp hout
    exact Bool.false_ne_true
  unfold Fanout.tick
  simp only [houts, List.filter_append, hsends, List.append_nil]
  rcases hreads with rfl | rfl
  · exact Nat.zero_le 1
  · exact Nat.le_refl 1

end Fanout

end Drift.App
