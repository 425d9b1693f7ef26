import Drift.Render.Proof.Uploads

/-!
# Recorded operations

What recorded operations make of the textures. Operations on one texture that do not read it change its
image step by step (`foldl_exec`), and a GPU that grants every request records all that it is asked to
(`adds_record`).
-/

namespace Drift.Render

open Std Drift.Gfx

/-! ### Execution -/

namespace GpuOp

variable {g : Gpu} {mem mem' : Memory} {op : GpuOp} {t : Texture}

theorem draw_congr (h : ∀ s, op.source = some s → mem s = mem' s) (dst : BgraImage) :
    op.draw g mem dst = op.draw g mem' dst := by
  cases op with
  | copyTexture src sourceOrigin target destinationOrigin size =>
      simp only [draw]
      rw [h src rfl]
  | _ => rfl

theorem size_draw (dst : BgraImage) :
    (op.draw g mem dst).width = dst.width ∧ (op.draw g mem dst).height = dst.height := by
  have hdraw : ∀ x y w h f, (Raster.draw dst x y w h f).width = dst.width ∧
      (Raster.draw dst x y w h f).height = dst.height := fun x y w h f =>
    ⟨(Raster.pixel?_draw dst x y w h f 0 0).1, (Raster.pixel?_draw dst x y w h f 0 0).2.1⟩
  cases op with
  | present output => exact ⟨rfl, rfl⟩
  | _ => exact hdraw _ _ _ _ _

theorem exec_of_ne (h : op.target ≠ some t) : op.exec g mem t = mem t := by
  unfold exec
  cases htarget : op.target with
  | none => rfl
  | some target =>
      have hne : t ≠ target := by
        rintro rfl
        exact h htarget
      exact Function.update_of_ne hne _ _

theorem size_exec : (op.exec g mem t).width = (mem t).width ∧
    (op.exec g mem t).height = (mem t).height := by
  unfold exec
  cases htarget : op.target with
  | none => exact ⟨rfl, rfl⟩
  | some target =>
      simp only
      by_cases heq : t = target
      · subst heq
        rw [Function.update_self]
        exact size_draw _
      · rw [Function.update_of_ne heq]
        exact ⟨rfl, rfl⟩

/-- **Operations on one texture.** Those that do not read it change its image one after the other. -/
theorem foldl_exec {ops : List GpuOp} (htarget : ∀ op ∈ ops, op.target = some t)
    (hsource : ∀ op ∈ ops, op.source ≠ some t) (mem : Memory) :
    ops.foldl (exec g) mem =
      Function.update mem t (ops.foldl (fun dst op => op.draw g mem dst) (mem t)) := by
  induction ops generalizing mem with
  | nil => simp
  | cons op ops ih =>
      have hfirst := htarget op List.mem_cons_self
      have hexec : op.exec g mem = Function.update mem t (op.draw g mem (mem t)) := by
        simp [exec, hfirst]
      have hrest := ih (fun op hop => htarget op (List.mem_cons_of_mem _ hop))
        (fun op hop => hsource op (List.mem_cons_of_mem _ hop)) (op.exec g mem)
      have hsame : ops.foldl (fun dst later => later.draw g (op.exec g mem) dst)
          (op.draw g mem (mem t)) =
            ops.foldl (fun dst later => later.draw g mem dst) (op.draw g mem (mem t)) := by
        refine List.foldl_ext _ _ _ fun dst later hlater => draw_congr (fun s hs => ?_) dst
        have hne : s ≠ t := by
          rintro rfl
          exact hsource later (List.mem_cons_of_mem _ hlater) hs
        rw [hexec, Function.update_of_ne hne]
      rw [List.foldl_cons, hrest, List.foldl_cons, ← hsame]
      rw [hexec, Function.update_self, Function.update_idem]

end GpuOp

/-! ### Recording -/

namespace Device

variable {g : Gpu} {d d' d'' : Device} {ops more : List GpuOp}

/-- Operations were recorded, and textures allocated. -/
structure Adds (g : Gpu) (d d' : Device) (ops : List GpuOp) : Prop where
  contents_eq : d'.contents g = ops.foldl (GpuOp.exec g) (d.contents g)
  next_le : d.nextTexture ≤ d'.nextTexture

theorem Adds.refl (d : Device) : Adds g d d [] := ⟨rfl, Nat.le_refl _⟩

theorem Adds.trans (h : Adds g d d' ops) (h' : Adds g d' d'' more) : Adds g d d'' (ops ++ more) :=
  ⟨by rw [h'.contents_eq, h.contents_eq, List.foldl_append], Nat.le_trans h.next_le h'.next_le⟩

theorem size_contents (d : Device) (t : Texture) : BgraImage.size (d.contents g t) = t.size := by
  have hfold : ∀ (ops : List GpuOp) (mem : Memory),
      (ops.foldl (GpuOp.exec g) mem t).width = (mem t).width ∧
        (ops.foldl (GpuOp.exec g) mem t).height = (mem t).height := by
    intro ops
    induction ops with
    | nil => exact fun mem => ⟨rfl, rfl⟩
    | cons op ops ih =>
        intro mem
        obtain ⟨hwidth, hheight⟩ := ih (op.exec g mem)
        obtain ⟨hwidth', hheight'⟩ : (op.exec g mem t).width = (mem t).width ∧
          (op.exec g mem t).height = (mem t).height := GpuOp.size_exec
        exact ⟨hwidth.trans hwidth', hheight.trans hheight'⟩
  obtain ⟨hwidth, hheight⟩ := hfold (d.committed.flatten ++ (d.work.map (·.ops)).getD []) g.initial
  unfold BgraImage.size contents
  rw [hwidth, hheight]
  rfl

theorem contents_of_ops_eq (h : d'.committed.flatten ++ (d'.work.map (·.ops)).getD [] =
    d.committed.flatten ++ (d.work.map (·.ops)).getD [] ++ ops) :
    d'.contents g = ops.foldl (GpuOp.exec g) (d.contents g) := by
  unfold contents
  rw [h, List.foldl_append]

section Granted

variable (hgrants : ∀ n, g.grants n = true)

include hgrants

theorem adds_openWork : ∃ work, (d.openWork g).work = some work ∧ Adds g d (d.openWork g) [] := by
  unfold openWork request
  cases hwork : d.work with
  | some work => exact ⟨work, hwork, .refl d⟩
  | none =>
      simp only [hgrants, if_true]
      refine ⟨⟨[], .none⟩, rfl, contents_of_ops_eq ?_, Nat.le_refl _⟩
      simp [hwork]

theorem adds_record (encoder : Encoder) (ops : List GpuOp) : Adds g d (d.record g encoder ops) ops := by
  obtain ⟨work, hwork, hopen⟩ := adds_openWork (d := d) hgrants
  have happend : ∀ asked, Adds g (d.openWork g)
      { d.openWork g with work := some ⟨work.ops ++ ops, encoder⟩, asked := asked } ops := by
    intro asked
    refine ⟨contents_of_ops_eq ?_, Nat.le_refl _⟩
    simp [hwork]
  have hadds : Adds g (d.openWork g) (d.record g encoder ops) ops := by
    unfold record
    simp only [hwork]
    split
    · exact happend _
    · simp only [request, hgrants, if_true]
      exact happend _
  exact hopen.trans hadds

theorem texture_of_size {size : Size} (hsize : ¬ (size.width = 0 ∨ size.height = 0)) :
    ∃ d', d.texture g size = (d', some ⟨d.nextTexture, size⟩) ∧ Adds g d d' [] ∧
      d'.nextTexture = d.nextTexture + 1 := by
  unfold texture request
  rw [if_neg hsize]
  simp only [hgrants, if_true]
  exact ⟨_, rfl, ⟨rfl, Nat.le_succ _⟩, rfl⟩

theorem deviceBuffer_of_length {length : Nat} (hlength : length ≠ 0) :
    ∃ d', d.deviceBuffer g length = (d', true) ∧ Adds g d d' [] := by
  unfold deviceBuffer request
  rw [if_neg hlength, hgrants]
  exact ⟨_, rfl, rfl, Nat.le_refl _⟩

end Granted

theorem texture_of_empty {size : Size} (hsize : size.width = 0 ∨ size.height = 0) :
    d.texture g size = (d, none) := if_pos hsize

theorem adds_commit (onComplete : Option Completion) : Adds g d (d.commit g onComplete).1 [] := by
  unfold commit
  split
  · next work _ hwork =>
      refine ⟨contents_of_ops_eq ?_, Nat.le_refl _⟩
      simp [submit, hwork]
  · exact .refl d
  · next completion hwork =>
      unfold request
      simp only
      split
      · refine ⟨contents_of_ops_eq ?_, Nat.le_refl _⟩
        simp [submit, hwork]
      · exact ⟨rfl, Nat.le_refl _⟩

theorem adds_complete (index : Nat) : Adds g d (d.complete index).1 [] := by
  unfold complete
  split <;> exact ⟨rfl, Nat.le_refl _⟩

theorem adds_abandon (index : Nat) : Adds g d (d.abandon index).1 [] := by
  unfold abandon
  split <;> exact ⟨rfl, Nat.le_refl _⟩

end Device

end Drift.Render
