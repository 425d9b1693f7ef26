import Drift.App.Windows
import Drift.Lib.Fair

/-!
# Recordings that are joined

Every path of the main thread ends the stream of a recording before it joins the recording thread, except
for the end of a session, which joins first.
-/

namespace Drift.App

open Transition

namespace Windows

variable {Label : Type} {s : Windows Label}

/-! ### Render threads and what they feed -/

theorem feeds_eq_false_iff {k : Nat} :
    s.feeds k = false ↔ ∀ (r : Nat) (t : RenderThread), s.renders[r]? = some t →
      t.recorder ≠ some k := by
  simp only [feeds, List.any_eq_false, decide_eq_true_eq]
  exact ⟨fun h r t ht => h t (List.mem_of_getElem? ht), fun h t ht =>
    have ⟨r, hr⟩ := List.mem_iff_getElem?.mp ht
    h r t hr⟩

/-- Between two paths: the streams that are known are there, and a compositor feeds the recording of a
window only from its own render thread. -/
structure Settled (s : Windows Label) : Prop where
  fed : ∀ (r : Nat) (t : RenderThread) (k : Nat), s.renders[r]? = some t → t.recorder = some k →
    k < s.streams.length
  known : ∀ label plat k, s.platforms label = some plat → plat.recording = some k →
    k < s.streams.length
  own : ∀ label plat k, s.platforms label = some plat → plat.recording = some k →
    ∀ (r : Nat) (t : RenderThread), s.renders[r]? = some t → t.recorder = some k →
      plat.render = some r

variable [DecidableEq Label]

/-- What is still to do joins recordings whose streams have ended by then, and settles. -/
def Orderly (s : Windows Label) : List (Op Label) → Prop
  | [] => s.Settled
  | op :: ops => (∀ k, op = .join k → s.feeds k = false) ∧ (s.exec op).Orderly ops

/-- Only the windows, the render threads and the number of streams count. -/
structure Alike (s s' : Windows Label) : Prop where
  platforms : s'.platforms = s.platforms
  renders : s'.renders = s.renders
  streams : s'.streams.length = s.streams.length

omit [DecidableEq Label] in
theorem Alike.settled {s' : Windows Label} (h : s.Alike s') (hs : s.Settled) : s'.Settled := by
  obtain ⟨hplatforms, hrenders, hstreams⟩ := h
  obtain ⟨hfed, hknown, hown⟩ := hs
  exact ⟨by rwa [hrenders, hstreams], by rwa [hplatforms, hstreams], by rwa [hplatforms, hrenders]⟩

omit [DecidableEq Label] in
theorem Settled.of_alike {s' : Windows Label} (hs : s.Settled)
    (hplatforms : s'.platforms = s.platforms) (hrenders : s'.renders = s.renders)
    (hstreams : s'.streams.length = s.streams.length) : s'.Settled :=
  Alike.settled ⟨hplatforms, hrenders, hstreams⟩ hs

omit [DecidableEq Label] in
theorem Alike.feeds {s' : Windows Label} (h : s.Alike s') (k : Nat) : s'.feeds k = s.feeds k := by
  rw [Windows.feeds, Windows.feeds, h.renders]

theorem Alike.exec {s' : Windows Label} (h : s.Alike s') (op : Op Label) :
    (s.exec op).Alike (s'.exec op) := by
  obtain ⟨hplatforms, hrenders, hstreams⟩ := h
  cases op with
  | shutdown render => exact ⟨hplatforms, by simp only [Windows.exec, hrenders], hstreams⟩
  | stopRecording render => exact ⟨hplatforms, by simp only [Windows.exec, hrenders], hstreams⟩
  | join recording => exact ⟨hplatforms, hrenders, hstreams⟩
  | startRecording label render spawned =>
      simp only [Windows.exec, hrenders]
      split
      · exact ⟨hplatforms, hrenders, hstreams⟩
      · cases spawned with
        | true =>
            exact ⟨by simp [setPlatform, hplatforms, hstreams], by simp [setPlatform, hstreams],
              by simp [setPlatform, hstreams]⟩
        | false => exact ⟨hplatforms, by simp [hstreams], by simp [hstreams]⟩

theorem Alike.orderly {s' : Windows Label} {ops : List (Op Label)} (h : s.Alike s')
    (hs : s.Orderly ops) : s'.Orderly ops := by
  induction ops generalizing s s' with
  | nil => exact h.settled hs
  | cons op ops ih => exact ⟨fun k hop => (h.feeds k).trans (hs.1 k hop), ih (h.exec op) hs.2⟩

/-! ### Changes that settle -/

theorem getElem?_modify {ts : List RenderThread} {f : RenderThread → RenderThread} {i r : Nat}
    {t : RenderThread} (h : (ts.modify i f)[r]? = some t) :
    ∃ t', ts[r]? = some t' ∧ t = if i = r then f t' else t' := by
  rw [List.getElem?_modify] at h
  cases hr : ts[r]? with
  | none => simp [hr] at h
  | some t' =>
      refine ⟨t', rfl, ?_⟩
      rw [hr] at h
      split at h <;> simp_all

omit [DecidableEq Label] in
theorem Settled.drop {f : RenderThread → RenderThread} (hs : s.Settled) (i : Nat)
    (hf : ∀ t, (f t).recorder = none) :
    Settled { s with renders := s.renders.modify i f } := by
  have hkept : ∀ (r : Nat) (t : RenderThread) (k : Nat), (s.renders.modify i f)[r]? = some t →
      t.recorder = some k → s.renders[r]? = some t := by
    intro r t k hr hk
    obtain ⟨t', hr', rfl⟩ := getElem?_modify hr
    split at hk
    · rw [hf] at hk
      cases hk
    · rw [if_neg ‹_›]
      exact hr'
  exact ⟨fun r t k hr hk => hs.fed r t k (hkept r t k hr hk) hk, hs.known,
    fun label plat k hplat hrec r t hr hk => hs.own label plat k hplat hrec r t (hkept r t k hr hk) hk⟩

omit [DecidableEq Label] in
/-- Nothing is fed to a window's recording when the recorder of its render thread is dropped. -/
theorem Settled.feeds_drop {f : RenderThread → RenderThread} (hs : s.Settled) {label : Label}
    {plat : WindowPlatform} {i k : Nat} (hplat : s.platforms label = some plat)
    (hrecording : plat.recording = some k) (hrender : plat.render = some i)
    (hf : ∀ t, (f t).recorder = none) :
    feeds { s with renders := s.renders.modify i f } k = false := by
  rw [feeds_eq_false_iff]
  intro r t hr hk
  obtain ⟨t', hr', rfl⟩ := getElem?_modify hr
  split at hk
  · rw [hf] at hk
    cases hk
  · have hown := hs.own label plat k hplat hrecording r t' hr' hk
    rw [hrender] at hown
    exact absurd (Option.some.inj hown) ‹_›

omit [DecidableEq Label] in
theorem Settled.feeds_none (hs : s.Settled) {label : Label} {plat : WindowPlatform} {k : Nat}
    (hplat : s.platforms label = some plat) (hrecording : plat.recording = some k)
    (hrender : plat.render = none) : s.feeds k = false := by
  rw [feeds_eq_false_iff]
  intro r t hr hk
  have hown := hs.own label plat k hplat hrecording r t hr hk
  rw [hrender] at hown
  cases hown

theorem platforms_setPlatform (s : Windows Label) (label : Label) (plat : Option WindowPlatform) :
    (s.setPlatform label plat).platforms = Function.update s.platforms label plat := rfl

/-- A window changes, and its recording is fed from its own render thread. -/
theorem Settled.setPlatform (hs : s.Settled) (label : Label) {plat : Option WindowPlatform}
    (hplat : ∀ p ∈ plat, ∀ k, p.recording = some k → k < s.streams.length ∧
      ∀ (r : Nat) (t : RenderThread), s.renders[r]? = some t → t.recorder = some k →
        p.render = some r) : (s.setPlatform label plat).Settled := by
  have hcases : ∀ l p, (s.setPlatform label plat).platforms l = some p →
      p ∈ plat ∨ s.platforms l = some p := by
    intro l p hp
    rw [platforms_setPlatform] at hp
    by_cases hl : l = label
    · subst hl
      rw [Function.update_self] at hp
      exact .inl hp
    · rw [Function.update_of_ne hl] at hp
      exact .inr hp
  refine ⟨hs.fed, fun l p k hp hk => ?_, fun l p k hp hk => ?_⟩
  · rcases hcases l p hp with hp | hp
    · exact (hplat p hp k hk).1
    · exact hs.known l p k hp hk
  · rcases hcases l p hp with hp | hp
    · exact (hplat p hp k hk).2
    · exact hs.own l p k hp hk

theorem Settled.forget (hs : s.Settled) (label : Label) {p : Option WindowPlatform}
    (hplat : ∀ q ∈ p, q.recording = none) : (s.setPlatform label p).Settled :=
  hs.setPlatform label fun p hp k hk => by
    rw [hplat p hp] at hk
    cases hk

/-- A recording starts: its stream is new, and fed by the render thread of the window. -/
theorem Settled.start (hs : s.Settled) {label : Label} {plat : WindowPlatform} {render : Nat}
    (hplat : s.platforms label = some plat) (hrender : plat.render = some render)
    (spawned : Bool) :
    (s.exec (.startRecording label render spawned)).Settled := by
  unfold exec
  simp only
  split
  · exact hs
  have hbase : Settled { s with
      renders := s.renders.modify render fun t => { t with recorder := some s.streams.length }
      streams := s.streams ++ [⟨0, 0, spawned⟩] } := by
    refine ⟨fun r t k hr hk => ?_, fun l p k hp hk => ?_, fun l p k hp hk r t hr ht => ?_⟩
    · rw [List.length_append, List.length_singleton]
      obtain ⟨t', hr', rfl⟩ := getElem?_modify hr
      split at hk
      · obtain rfl : s.streams.length = k := by simpa using hk
        exact Nat.lt_succ_self _
      · exact Nat.lt_succ_of_lt (hs.fed r t' k hr' hk)
    · rw [List.length_append, List.length_singleton]
      exact Nat.lt_succ_of_lt (hs.known l p k hp hk)
    · obtain ⟨t', hr', rfl⟩ := getElem?_modify hr
      split at ht
      · obtain rfl : s.streams.length = k := by simpa using ht
        exact absurd (hs.known l p _ hp hk) (Nat.lt_irrefl _)
      · exact hs.own l p k hp hk r t' hr' ht
  cases spawned with
  | false => exact hbase
  | true =>
      refine hbase.setPlatform label ?_
      simp only [hplat, Option.map_some, Option.mem_def, Option.some.injEq]
      rintro p rfl k hk
      obtain rfl : s.streams.length = k := by simpa using hk
      refine ⟨by simp, fun r t hr ht => ?_⟩
      obtain ⟨t', hr', rfl⟩ := getElem?_modify hr
      split at ht
      · rwa [← ‹render = r›]
      · exact absurd (hs.fed r t' _ hr' ht) (Nat.lt_irrefl _)

/-! ### The paths -/

theorem orderly_shutdown (hs : s.Settled) (render : Option Nat) :
    s.Orderly (render.map .shutdown).toList := by
  cases render with
  | none => exact hs
  | some render => exact ⟨fun k hop => (nomatch hop), hs.drop render fun _ => rfl⟩

theorem orderly_release (hs : s.Settled) (htodo : s.todo = []) (label : Label)
    (hends : ∀ plat k, s.platforms label = some plat → plat.recording = some k →
      s.feeds k = false) :
    (s.releaseSession label).Orderly (s.releaseSession label).todo := by
  unfold releaseSession
  cases hplat : s.platforms label with
  | none =>
      simp only [htodo]
      exact hs
  | some plat =>
      have hforget := hs.forget label (p := some ⟨none, none⟩) (by simp)
      refine Alike.orderly (s := s.setPlatform label (some ⟨none, none⟩)) ⟨rfl, rfl, rfl⟩ ?_
      dsimp only
      cases hrecording : plat.recording with
      | none => exact orderly_shutdown hforget plat.render
      | some recording =>
          refine ⟨?_, orderly_shutdown hforget plat.render⟩
          rintro k ⟨⟩
          exact hends plat recording hplat hrecording

theorem orderly_join (hs : s.Settled) {label : Label} {plat : WindowPlatform} {recording : Nat}
    (hplat : s.platforms label = some plat) (hrecording : plat.recording = some recording)
    {s' : Windows Label} (hs' : s'.Settled) (hrenders : s'.renders = s.renders)
    {o : Nat → Op Label} {f : RenderThread → RenderThread} (hf : ∀ t, (f t).recorder = none)
    (hexec : ∀ (s : Windows Label) i, s.exec (o i) = { s with renders := s.renders.modify i f })
    (hop : ∀ i k, o i ≠ .join k) :
    s'.Orderly ((plat.render.map o).toList ++ [.join recording]) := by
  cases hrender : plat.render with
  | none =>
      refine ⟨?_, hs'⟩
      rintro k ⟨⟩
      rw [feeds, hrenders]
      exact hs.feeds_none hplat hrecording hrender
  | some render =>
      refine ⟨fun k h => absurd h (hop render k), ?_, ?_⟩
      · rintro k ⟨⟩
        rw [hexec, feeds, hrenders]
        exact hs.feeds_drop hplat hrecording hrender hf
      · rw [hexec]
        exact hs'.drop render hf

theorem orderly_toggle (hs : s.Settled) (htodo : s.todo = []) (label : Label) (spawned : Bool) :
    (s.toggleRecording label spawned).Orderly (s.toggleRecording label spawned).todo := by
  unfold toggleRecording
  cases hplat : s.platforms label with
  | none =>
      simp only [htodo]
      exact hs
  | some plat =>
      dsimp only
      cases hrecording : plat.recording with
      | some recording =>
          refine Alike.orderly (s := s.setPlatform label (some { plat with recording := none }))
            ⟨rfl, rfl, rfl⟩ ?_
          exact orderly_join hs hplat hrecording (hs.forget label (by simp)) rfl (o := .stopRecording)
            (f := fun t => { t with recorder := none }) (fun _ => rfl) (fun _ _ => rfl)
            (fun _ _ => nofun)
      | none =>
          cases hrender : plat.render with
          | none =>
              simp only [htodo]
              exact hs
          | some render =>
              refine ⟨fun k hop => (nomatch hop), ?_⟩
              have halike : s.Alike { s with todo := [.startRecording label render spawned] } :=
                ⟨rfl, rfl, rfl⟩
              exact (halike.exec _).settled (hs.start hplat hrender spawned)

theorem orderly_drop (hs : s.Settled) {label : Label} {plat : WindowPlatform}
    (hplat : s.platforms label = some plat) {s' : Windows Label} (hs' : s'.Settled)
    (hrenders : s'.renders = s.renders) :
    s'.Orderly ((plat.render.map .shutdown).toList ++ (plat.recording.map .join).toList) := by
  cases hrecording : plat.recording with
  | none =>
      rw [Option.map_none, Option.toList_none, List.append_nil]
      exact orderly_shutdown hs' plat.render
  | some recording =>
      exact orderly_join hs hplat hrecording hs' hrenders (o := .shutdown)
        (f := fun _ => ⟨true, none⟩) (fun _ => rfl) (fun _ _ => rfl) (fun _ _ => nofun)

theorem orderly_remove (hs : s.Settled) (htodo : s.todo = []) (label : Label) :
    (s.removeWindow label).Orderly (s.removeWindow label).todo := by
  unfold removeWindow
  cases hplat : s.platforms label with
  | none =>
      simp only [htodo]
      exact hs
  | some plat =>
      refine Alike.orderly (s := s.setPlatform label none) ⟨rfl, rfl, rfl⟩ ?_
      exact orderly_drop hs hplat (hs.forget label (by simp)) rfl

theorem orderly_prepare (hs : s.Settled) (htodo : s.todo = []) (label : Label) :
    (s.prepareWindow label).Orderly (s.prepareWindow label).todo := by
  unfold prepareWindow removeWindow
  cases hplat : s.platforms label with
  | none =>
      show Orderly _ s.todo
      rw [htodo]
      exact hs.forget label (by simp)
  | some plat =>
      have hforget := (hs.forget label (p := none) (by simp)).forget label
        (p := some ⟨none, none⟩) (by simp)
      refine Alike.orderly (s := (s.setPlatform label none).setPlatform label (some ⟨none, none⟩))
        ⟨rfl, rfl, rfl⟩ ?_
      exact orderly_drop hs hplat hforget rfl

omit [DecidableEq Label] in
theorem Settled.addRender (hs : s.Settled) :
    Settled { s with renders := s.renders ++ [⟨false, none⟩] } := by
  have hkept : ∀ (r : Nat) (t : RenderThread) (k : Nat),
      (s.renders ++ [⟨false, none⟩])[r]? = some t → t.recorder = some k →
      s.renders[r]? = some t := by
    intro r t k hr hk
    rw [List.getElem?_append] at hr
    split at hr
    · exact hr
    · obtain rfl : t = ⟨false, none⟩ := by simpa using List.mem_of_getElem? hr
      cases hk
  exact ⟨fun r t k hr hk => hs.fed r t k (hkept r t k hr hk) hk, hs.known,
    fun l p k hp hrec r t hr hk => hs.own l p k hp hrec r t (hkept r t k hr hk) hk⟩

theorem orderly_connect (hs : s.Settled) (htodo : s.todo = []) (label : Label) (spawned : Bool) :
    (s.createRenderSink label spawned).Orderly (s.createRenderSink label spawned).todo := by
  unfold createRenderSink
  cases hplat : s.platforms label with
  | none =>
      simp only [htodo]
      exact hs
  | some plat =>
      cases spawned with
      | false =>
          simp only [Bool.false_eq_true, if_false, htodo]
          exact hs
      | true =>
          simp only [if_true]
          have hadded := hs.addRender
          cases hrender : plat.render with
          | none =>
              refine (hadded.setPlatform label ?_).of_alike rfl rfl rfl
              rintro _ ⟨⟩ k hk
              have hfeeds := hadded.feeds_none hplat hk hrender
              exact ⟨hs.known label plat k hplat hk, fun r t hr ht =>
                absurd ht (feeds_eq_false_iff.mp hfeeds r t hr)⟩
          | some render =>
              refine ⟨fun k hop => (nomatch hop), ?_⟩
              have hdropped := hadded.drop render (f := fun _ => ⟨true, none⟩) fun _ => rfl
              refine (hdropped.setPlatform label ?_).of_alike rfl rfl rfl
              rintro _ ⟨⟩ k hk
              have hfeeds := hadded.feeds_drop hplat hk hrender (f := fun _ => ⟨true, none⟩)
                fun _ => rfl
              exact ⟨hs.known label plat k hplat hk, fun r t hr ht =>
                absurd ht (feeds_eq_false_iff.mp hfeeds r t hr)⟩

/-! ### Steps -/

/-- Between two paths and on one, what is still to do is orderly. -/
def Careful (s : Windows Label) : Prop := s.Orderly s.todo

theorem Careful.settled (h : s.Careful) (htodo : s.todo = []) : s.Settled := by
  rwa [Careful, htodo] at h

theorem todo_exec (s : Windows Label) (op : Op Label) : (s.exec op).todo = s.todo := by
  cases op with
  | startRecording label render spawned =>
      unfold exec
      dsimp only
      split
      · rfl
      · split <;> rfl
  | _ => rfl

/-- The main thread comes to a recording thread whose stream has ended. -/
theorem Careful.arrive (h : s.Careful) : ∀ join ∈ s.arrive.2, join.ended = true := by
  unfold Careful at h
  unfold Windows.arrive
  cases htodo : s.todo with
  | nil => simp
  | cons op ops =>
      rw [htodo] at h
      cases op with
      | join recording => simpa using h.1 recording rfl
      | _ => simp

theorem careful_begin (h : s.Careful) {path : Windows Label → Windows Label}
    (hpath : s.todo = [] → (path s).Careful) :
    (s.begin path).1.Careful ∧ ∀ join ∈ (s.begin path).2, join.ended = true := by
  unfold begin
  split
  · have hcareful := hpath (List.isEmpty_iff.mp ‹_›)
    exact ⟨hcareful, hcareful.arrive⟩
  · exact ⟨h, by simp⟩

theorem careful_goOn (h : s.Careful) :
    s.goOn.1.Careful ∧ ∀ join ∈ s.goOn.2, join.ended = true := by
  have hcareful := h
  unfold Careful at h
  unfold goOn
  split
  · exact ⟨hcareful, by simp⟩
  · rename_i recording rest htodo
    rw [htodo] at h
    split
    · exact ⟨hcareful, by simp⟩
    · have halike : s.Alike { s with todo := rest } := ⟨rfl, rfl, rfl⟩
      have hrest : ({ s with todo := rest } : Windows Label).Careful := halike.orderly h.2
      exact ⟨hrest, hrest.arrive⟩
  · rename_i op rest hop htodo
    rw [htodo] at h
    have halike : s.Alike { s with todo := rest } := ⟨rfl, rfl, rfl⟩
    have hrest : (({ s with todo := rest } : Windows Label).exec op).Careful := by
      have horderly := (halike.exec op).orderly h.2
      rwa [Careful, todo_exec]
    exact ⟨hrest, hrest.arrive⟩

theorem careful_streams (h : s.Careful) (streams : List FrameStream)
    (hstreams : streams.length = s.streams.length) :
    ({ s with streams := streams } : Windows Label).Careful :=
  Alike.orderly (s := s) ⟨rfl, rfl, hstreams⟩ h

theorem careful_compose (h : s.Careful) (render : Nat) (slot : Bool) :
    (s.compose render slot).Careful := by
  unfold compose
  split
  · split
    · exact careful_streams h _ (by simp)
    · exact h
  · exact h

/-- The end of a session whose recording is still fed begins with a join. -/
theorem release_joins {label : Label} {plat : WindowPlatform} {recording : Nat}
    (hplat : s.platforms label = some plat) (hrecording : plat.recording = some recording) :
    (s.releaseSession label).arrive.2 = [⟨recording, !s.feeds recording⟩] := by
  simp only [releaseSession, hplat, hrecording]
  rfl

/-- One step: the recording threads that are joined have no more frames to come exactly when a session that
ends leaves none that has. -/
theorem step_careful (h : s.Careful) (i : Input Label) :
    ((∀ join ∈ (s.step i).2, join.ended = true) ↔ s.EndsUnrecorded i) ∧
      (s.EndsUnrecorded i → (s.step i).1.Careful) := by
  have hpath : ∀ {path : Windows Label → Windows Label}, (s.todo = [] → (path s).Careful) →
      ((∀ join ∈ (s.begin path).2, join.ended = true) ↔ True) ∧
        (True → (s.begin path).1.Careful) := fun hpath =>
    have hbegin := careful_begin h hpath
    ⟨iff_true_intro hbegin.2, fun _ => hbegin.1⟩
  cases i with
  | prepared label => exact hpath fun htodo => orderly_prepare (h.settled htodo) htodo label
  | connected label spawned =>
      exact hpath fun htodo => orderly_connect (h.settled htodo) htodo label spawned
  | toggled label spawned =>
      exact hpath fun htodo => orderly_toggle (h.settled htodo) htodo label spawned
  | closed label => exact hpath fun htodo => orderly_remove (h.settled htodo) htodo label
  | main =>
      have hgoOn := careful_goOn h
      exact ⟨iff_true_intro hgoOn.2, fun _ => hgoOn.1⟩
  | composed render slot => exact ⟨by simp [step, EndsUnrecorded], fun _ => careful_compose h render slot⟩
  | completed stream =>
      exact ⟨by simp [step, EndsUnrecorded], fun _ => careful_streams h _ (by simp)⟩
  | read stream done =>
      exact ⟨by simp [step, EndsUnrecorded], fun _ => careful_streams h _ (by simp)⟩
  | sessionEnded label =>
      have hgood : s.EndsUnrecorded (.sessionEnded label) →
          (s.begin (·.releaseSession label)).1.Careful ∧
            ∀ join ∈ (s.begin (·.releaseSession label)).2, join.ended = true := fun hends =>
        careful_begin h fun htodo => orderly_release (h.settled htodo) htodo label (hends htodo)
      refine ⟨⟨fun hjoins htodo plat recording hplat hrecording => ?_, fun hends => (hgood hends).2⟩,
        fun hends => (hgood hends).1⟩
      have hended := hjoins ⟨recording, !s.feeds recording⟩ (by
        simp only [step, begin, htodo, List.isEmpty_nil, if_true, release_joins hplat hrecording]
        exact List.mem_cons_self)
      simpa using hended

end Windows

/-! ### The threads that are waited for -/

namespace Windows

variable {Label : Type} [DecidableEq Label] {s : Windows Label} {k : Nat}

/-- The stream has ended: it is known, and nothing feeds it. -/
structure Ended (s : Windows Label) (k : Nat) : Prop where
  known : k < s.streams.length
  unfed : s.feeds k = false

omit [DecidableEq Label] in
theorem feeds_modify {f : RenderThread → RenderThread} (h : s.feeds k = false) (i : Nat)
    (hf : ∀ t, (f t).recorder ≠ some k) :
    feeds { s with renders := s.renders.modify i f } k = false := by
  rw [feeds_eq_false_iff] at h ⊢
  intro r t hr
  obtain ⟨t', hr', rfl⟩ := getElem?_modify hr
  split
  · exact hf t'
  · exact h r t' hr'

theorem Ended.exec (h : s.Ended k) (op : Op Label) :
    (s.exec op).Ended k ∧ (s.exec op).streams[k]? = s.streams[k]? := by
  obtain ⟨hknown, hunfed⟩ := h
  cases op with
  | shutdown render => exact ⟨⟨hknown, feeds_modify hunfed render (by simp)⟩, rfl⟩
  | stopRecording render => exact ⟨⟨hknown, feeds_modify hunfed render (by simp)⟩, rfl⟩
  | join recording => exact ⟨⟨hknown, hunfed⟩, rfl⟩
  | startRecording label render spawned =>
      unfold Windows.exec
      dsimp only
      split
      · exact ⟨⟨hknown, hunfed⟩, rfl⟩
      have hfed : feeds { s with renders := s.renders.modify render fun t =>
          { t with recorder := some s.streams.length } } k = false :=
        feeds_modify hunfed render fun t => by simpa using Nat.ne_of_gt hknown
      have hlength : k < (s.streams ++ [(⟨0, 0, spawned⟩ : FrameStream)]).length := by
        rw [List.length_append]
        omega
      split
      · exact ⟨⟨hlength, hfed⟩, List.getElem?_append_left hknown⟩
      · exact ⟨⟨hlength, hfed⟩, List.getElem?_append_left hknown⟩

/-- What happens to a stream that has ended. -/
inductive Handled (t : FrameStream) : FrameStream → Prop where
  | same : Handled t t
  | delivered : Handled t t.deliver
  | read (done : Bool) : Handled t (t.read true done)

omit [DecidableEq Label] in
/-- A path that leaves the streams alone, and the render threads but for new ones. -/
theorem Ended.of_path {s' : Windows Label} (h : s.Ended k) (hstreams : s'.streams = s.streams)
    (hrenders : s'.renders = s.renders ∨ s'.renders = s.renders ++ [⟨false, none⟩]) :
    s'.Ended k ∧ s'.streams[k]? = s.streams[k]? := by
  refine ⟨⟨by rw [hstreams]; exact h.known, ?_⟩, by rw [hstreams]⟩
  rw [feeds]
  rcases hrenders with hrenders | hrenders
  · rw [hrenders]
    exact h.unfed
  · rw [hrenders, List.any_append, ← feeds, h.unfed]
    rfl

omit [DecidableEq Label] in
theorem Ended.begin {path : Windows Label → Windows Label} (h : s.Ended k)
    (hpath : (path s).Ended k ∧ (path s).streams[k]? = s.streams[k]?) :
    (s.begin path).1.Ended k ∧ (s.begin path).1.streams[k]? = s.streams[k]? := by
  unfold Windows.begin
  split
  · exact hpath
  · exact ⟨h, rfl⟩

theorem Ended.goOn (h : s.Ended k) :
    s.goOn.1.Ended k ∧ s.goOn.1.streams[k]? = s.streams[k]? := by
  unfold Windows.goOn
  split
  · exact ⟨h, rfl⟩
  · split
    · exact ⟨h, rfl⟩
    · exact ⟨⟨h.known, h.unfed⟩, rfl⟩
  · rename_i op rest hop htodo
    exact Ended.exec (s := { s with todo := rest }) ⟨h.known, h.unfed⟩ op

omit [DecidableEq Label] in
theorem Ended.modify (h : s.Ended k) (i : Nat) (f : FrameStream → FrameStream) :
    Ended { s with streams := s.streams.modify i f } k :=
  ⟨by rw [List.length_modify]; exact h.known, h.unfed⟩

omit [DecidableEq Label] in
theorem Ended.compose (h : s.Ended k) (render : Nat) (slot : Bool) :
    (s.compose render slot).Ended k ∧ (s.compose render slot).streams[k]? = s.streams[k]? := by
  unfold Windows.compose
  split
  · rename_i stream hstream
    split
    · -- The stream that is fed is another one.
      obtain ⟨t, ht, hrecorder⟩ := Option.bind_eq_some_iff.mp hstream
      have hother : stream ≠ k := fun hk =>
        feeds_eq_false_iff.mp h.unfed render t ht (hk ▸ hrecorder)
      exact ⟨h.modify stream _, by simp [hother]⟩
    · exact ⟨h, rfl⟩
  · exact ⟨h, rfl⟩

theorem Ended.step (h : s.Ended k) (i : Input Label) {t : FrameStream}
    (ht : s.streams[k]? = some t) :
    (s.step i).1.Ended k ∧ ∃ t', (s.step i).1.streams[k]? = some t' ∧ Handled t t' ∧
      (i = .completed k → t' = t.deliver) ∧ ∀ done, i = .read k done → t' = t.read true done := by
  have hsame : ∀ {s' : Windows Label}, s'.Ended k ∧ s'.streams[k]? = s.streams[k]? →
      (i ≠ .completed k) → (∀ done, i ≠ .read k done) →
      s'.Ended k ∧ ∃ t', s'.streams[k]? = some t' ∧ Handled t t' ∧
        (i = .completed k → t' = t.deliver) ∧ ∀ done, i = .read k done → t' = t.read true done :=
    fun hs' hcompleted hread => ⟨hs'.1, t, hs'.2.trans ht, .same, fun hi => absurd hi hcompleted,
      fun done hi => absurd hi (hread done)⟩
  cases i with
  | prepared label =>
      refine hsame (h.begin (h.of_path ?_ (.inl ?_))) (fun hi => by cases hi) fun _ hi => by cases hi
      all_goals unfold prepareWindow removeWindow; split <;> rfl
  | connected label spawned =>
      refine hsame (h.begin ?_) (fun hi => by cases hi) fun _ hi => by cases hi
      unfold createRenderSink
      split
      · exact ⟨h, rfl⟩
      · split
        · exact h.of_path rfl (.inr rfl)
        · exact ⟨h, rfl⟩
  | toggled label spawned =>
      refine hsame (h.begin (h.of_path ?_ (.inl ?_))) (fun hi => by cases hi) fun _ hi => by cases hi
      all_goals unfold toggleRecording; (repeat' split) <;> rfl
  | sessionEnded label =>
      refine hsame (h.begin (h.of_path ?_ (.inl ?_))) (fun hi => by cases hi) fun _ hi => by cases hi
      all_goals unfold releaseSession; split <;> rfl
  | closed label =>
      refine hsame (h.begin (h.of_path ?_ (.inl ?_))) (fun hi => by cases hi) fun _ hi => by cases hi
      all_goals unfold removeWindow; split <;> rfl
  | main => exact hsame h.goOn (fun hi => by cases hi) fun _ hi => by cases hi
  | composed render slot =>
      exact hsame (h.compose render slot) (fun hi => by cases hi) fun _ hi => by cases hi
  | completed stream =>
      refine ⟨h.modify stream _, ?_⟩
      by_cases hstream : stream = k
      · subst hstream
        exact ⟨t.deliver, by simp [Windows.step, ht], .delivered, fun _ => rfl,
          fun _ hi => by cases hi⟩
      · exact ⟨t, by simp [Windows.step, hstream, ht], .same,
          fun hi => absurd (by simpa using hi) hstream, fun _ hi => by cases hi⟩
  | read stream done =>
      refine ⟨h.modify stream _, ?_⟩
      by_cases hstream : stream = k
      · subst hstream
        refine ⟨t.read true done, by simp [Windows.step, ht, h.unfed], .read done,
          fun hi => (by cases hi), ?_⟩
        rintro _ ⟨⟩
        rfl
      · refine ⟨t, by simp [Windows.step, hstream, ht], .same, fun hi => (by cases hi), ?_⟩
        exact fun _ hi => absurd (Input.read.inj hi).1 hstream

/-- How much a recording thread has still to do before it finds its stream ended. -/
def remaining (t : FrameStream) : Nat := 2 * t.deliveries + if t.reading then t.queued + 1 else 0

theorem remaining_deliver (t : FrameStream) :
    t.deliveries = 0 ∧ t.deliver = t ∨ remaining t.deliver < remaining t := by
  unfold FrameStream.deliver
  by_cases hnone : t.deliveries = 0
  · exact .inl ⟨hnone, if_pos hnone⟩
  · right
    rw [if_neg hnone]
    cases hreading : t.reading with
    | false =>
        simp [remaining, hreading]
        omega
    | true =>
        simp only [remaining, hreading, Bool.true_and, if_true]
        split <;> omega

theorem remaining_read (t : FrameStream) (done : Bool) :
    t.read true done = t ∧ (t.reading = false ∨ t.deliveries ≠ 0) ∨
      remaining (t.read true done) < remaining t := by
  obtain ⟨deliveries, queued, reading⟩ := t
  unfold FrameStream.read
  cases reading with
  | false => exact .inl ⟨rfl, .inl rfl⟩
  | true =>
      cases done with
      | true =>
          right
          simp [remaining]
      | false =>
          by_cases hqueued : 0 < queued
          · right
            simp only [Bool.not_true, Bool.false_eq_true, if_false, hqueued, if_true, remaining]
            omega
          · by_cases hnone : deliveries = 0
            · right
              simp [hqueued, hnone, remaining]
            · left
              simp [hqueued, hnone]

theorem Handled.remaining_le {t t' : FrameStream} (h : Handled t t') :
    t' = t ∨ remaining t' < remaining t := by
  cases h with
  | same => exact .inl rfl
  | delivered => exact (remaining_deliver t).imp_left And.right
  | read done => exact (remaining_read t done).imp_left And.left

/-- What a recording thread waits for whose stream has ended: a delivery that is in flight, or its turn. -/
def awaited (k : Nat) (s : Windows Label) : Input Label :=
  if (s.streams[k]?).any (0 < ·.deliveries) then .completed k else .read k false

theorem progress (k : Nat) : Progress (Windows.step : Windows Label → Input Label → _) (Ended · k)
    (fun s => (s.streams[k]?).elim 0 remaining) (awaited k) := by
  have hstep : ∀ (s : Windows Label) (i : Input Label), s.Ended k → ∃ t t',
      s.streams[k]? = some t ∧ (s.step i).1.streams[k]? = some t' ∧ Handled t t' ∧
        (i = .completed k → t' = t.deliver) ∧
        ∀ done, i = .read k done → t' = t.read true done := by
    intro s i h
    have ht := List.getElem?_eq_getElem h.known
    obtain ⟨-, t', ht', hhandled⟩ := h.step i ht
    exact ⟨_, t', ht, ht', hhandled⟩
  refine ⟨fun s i h => (h.step i (List.getElem?_eq_getElem h.known)).1, fun s i h => ?_,
    fun s i h hsame => ?_, fun s h hleft => ?_⟩
  · obtain ⟨t, t', ht, ht', hhandled, -⟩ := hstep s i h
    rw [ht, ht']
    rcases hhandled.remaining_le with rfl | hlt
    · exact Nat.le_refl _
    · exact Nat.le_of_lt hlt
  · obtain ⟨t, t', ht, ht', hhandled, -⟩ := hstep s i h
    simp only [ht, ht', Option.elim_some] at hsame
    rcases hhandled.remaining_le with rfl | hlt
    · rw [awaited, awaited, ht, ht']
    · omega
  · obtain ⟨t, t', ht, ht', -, hcompleted, hread⟩ := hstep s (awaited k s) h
    rw [ht, Option.elim_some] at hleft
    rw [ht, ht', Option.elim_some, Option.elim_some]
    by_cases hdeliveries : 0 < t.deliveries
    · have hawaited : awaited k s = .completed k := by simp [awaited, ht, hdeliveries]
      rw [hcompleted hawaited]
      exact (remaining_deliver t).resolve_left fun hnone => by omega
    · have hawaited : awaited k s = .read k false := by simp [awaited, ht, hdeliveries]
      rw [hread false hawaited]
      refine (remaining_read t false).resolve_left ?_
      rintro ⟨-, hreading | hnone⟩
      · exact hleft (by simp [remaining, hreading]; omega)
      · omega

/-- A recording thread whose stream has ended is done after as many fair rounds as it has deliveries and
frames to wait for. -/
theorem ended_thread_finishes (h : s.Ended k) {rounds : List (List (Input Label))}
    (hfair : ∀ is ∈ rounds, .completed k ∈ is ∧ .read k false ∈ is)
    (henough : (s.streams[k]?).elim 0 remaining ≤ rounds.length) :
    (run Windows.step s rounds.flatten).1.isReading k = false := by
  have hzero : ((run Windows.step s rounds.flatten).1.streams[k]?).elim 0 remaining = 0 :=
    (progress k).run_rounds h (fun is his s _ => ?_) henough
  · unfold isReading
    cases ht : (run Windows.step s rounds.flatten).1.streams[k]? with
    | none => rfl
    | some t =>
        rw [ht, Option.elim_some, remaining] at hzero
        cases hreading : t.reading with
        | false => simp [hreading]
        | true => simp [hreading] at hzero
  · unfold awaited
    split
    · exact (hfair is his).1
    · exact (hfair is his).2

end Windows

/-! ### Runs -/

section

variable {Label : Type} [DecidableEq Label]

/-- **Recordings are joined after their streams.** In a run the main thread waits only for recording
threads whose streams have ended, exactly when no session ends while its window has a recording whose
frames still come. -/
theorem recordings_joined_iff (is : List (Windows.Input Label)) :
    (∀ join ∈ (run Windows.step Windows.new is).2, join.ended = true) ↔
      Along Windows.step (fun _ _ => ()) (fun s _ i => s.EndsUnrecorded i) Windows.new () is := by
  have hforall : ∀ joins : List Windows.Join, (∀ join ∈ joins, join.ended = true) ↔
      Holds (fun (_ : Unit) _ => ()) (fun _ join => join.ended = true) () joins := by
    intro joins
    induction joins with
    | nil => simp
    | cons join joins ih => rw [List.forall_mem_cons, ih, holds_cons]
  rw [hforall]
  refine run_holds_iff (fun s _ => s.Careful) (fun s _ i h => ?_) ?_ is
  · rw [← hforall]
    exact Windows.step_careful h i
  · exact ⟨fun r t k hr => by simp [Windows.new] at hr, fun l p k hp => (nomatch hp),
      fun l p k hp => (nomatch hp)⟩

/-- A session that ends while its window is recorded. -/
theorem not_recordings_joined :
    ¬ ∀ join ∈ (run Windows.step Windows.new
        [.prepared "session-1", .connected "session-1" true, .toggled "session-1" true, .main,
          .sessionEnded "session-1"]).2, join.ended = true := by
  decide

end

end Drift.App
