import DisplayList.Proofs.Surface.Step
import Mathlib.Data.List.Induction

/-!
# Saves and restores that match

A block of instructions is `Nested` when no restore in it is without a save to go with, and
`Balanced` when besides every save in it is restored. Following a nested block only stacks paints on
top of those that were saved before it, and following a balanced block leaves the stack as it was.
So a paint on the stack was saved by a save that the rest of the history keeps open:
`exists_open_save`.
-/

namespace DisplayList

namespace Instruction

/-- No part of a block from its beginning on has more restores than saves. -/
def Nested (block : List Instruction) : Prop :=
  ∀ front, front <+: block → front.countP isRestore ≤ front.countP isSave

/-- A nested block with as many restores as saves. -/
structure Balanced (block : List Instruction) : Prop where
  nested : Nested block
  closed : block.countP isRestore = block.countP isSave

theorem isRestore_of_isSave {i : Instruction} (h : i.isSave) : i.isRestore = false := by
  obtain ⟨args, rfl⟩ := exists_of_isSave h
  rfl

theorem isSave_of_isRestore {i : Instruction} (h : i.isRestore) : i.isSave = false := by
  obtain ⟨args, rfl⟩ := exists_of_isRestore h
  rfl

theorem Nested.of_append {front rest : List Instruction} (h : Nested (front ++ rest)) :
    Nested front :=
  fun _ hfront => h _ (hfront.trans (List.prefix_append front rest))

theorem Nested.append {block later : List Instruction} (h : Nested block)
    (hlater : Nested later) : Nested (block ++ later) := by
  rintro front ⟨rest, hrest⟩
  rcases List.append_eq_append_iff.1 hrest with ⟨mid, hblock, -⟩ | ⟨mid, rfl, hmid⟩
  · exact h front ⟨mid, hblock.symm⟩
  · have hwhole := h block (List.prefix_refl block)
    have hpart := hlater mid ⟨rest, hmid.symm⟩
    rw [List.countP_append, List.countP_append]
    omega

/-- A block with an open save stays nested, whatever comes next. -/
theorem Nested.concat {block : List Instruction} (h : Nested block)
    (hopen : block.countP isRestore < block.countP isSave) (i : Instruction) :
    Nested (block ++ [i]) := by
  intro front hfront
  rcases List.prefix_concat_iff.1 hfront with rfl | hfront
  · rw [List.countP_append, List.countP_append, List.countP_singleton]
    split <;> omega
  · exact h front hfront

theorem balanced_nil : Balanced [] := ⟨by intro front hfront; simp_all, rfl⟩

theorem nested_singleton {i : Instruction} (h : i.isRestore = false) : Nested [i] := by
  intro front hfront
  rcases List.prefix_cons_iff.1 hfront with rfl | ⟨front, rfl, hnil⟩
  · exact Nat.le_refl 0
  · rw [List.prefix_nil.1 hnil, List.countP_singleton, h]
    exact Nat.zero_le _

/-- A save, a balanced block and a restore are a balanced block. -/
theorem Balanced.wrap {save restore : Instruction} {block : List Instruction} (h : Balanced block)
    (hsave : save.isSave) (hrestore : restore.isRestore) :
    Balanced (save :: (block ++ [restore])) := by
  constructor
  · intro front hfront
    rcases List.prefix_cons_iff.1 hfront with rfl | ⟨part, rfl, hpart⟩
    · exact Nat.le_refl 0
    · rw [List.countP_cons_of_neg (by simp [isRestore_of_isSave hsave]),
        List.countP_cons_of_pos hsave]
      rcases List.prefix_concat_iff.1 hpart with rfl | hpart
      · simp [h.closed, hrestore, isSave_of_isRestore hrestore]
      · exact Nat.le_succ_of_le (h.nested part hpart)
  · simp [h.closed, hsave, hrestore, isRestore_of_isSave hsave, isSave_of_isRestore hrestore]

end Instruction

namespace Surface

open Instruction

/-- The canvas behind some instructions, whether it followed them or turned them down. -/
def after (s : Surface) (instructions : List Instruction) : Surface :=
  instructions.foldl (fun s i => (receiver.follow i s).state) s

/-- What some instructions make of a new canvas. -/
def run (instructions : List Instruction) : Surface := new.after instructions

theorem after_append (s : Surface) (block later : List Instruction) :
    s.after (block ++ later) = (s.after block).after later :=
  List.foldl_append

theorem after_concat (s : Surface) (block : List Instruction) (i : Instruction) :
    s.after (block ++ [i]) = (receiver.follow i (s.after block)).state :=
  s.after_append block [i]

theorem run_concat (history : List Instruction) (i : Instruction) :
    run (history ++ [i]) = (receiver.follow i (run history)).state :=
  new.after_concat history i

/-- A nested block leaves as many paints on top of the stack as it has saves that it does not
restore. -/
theorem exists_saved_after {block : List Instruction} (h : Nested block) (s : Surface) :
    ∃ top, (s.after block).saved = top ++ s.saved ∧
      block.countP isSave = block.countP isRestore + top.length := by
  induction block using List.reverseRecOn with
  | nil => exact ⟨[], rfl, rfl⟩
  | append_singleton block i ih =>
      obtain ⟨top, htop, hcount⟩ := ih h.of_append
      rw [after_concat]
      rcases i.save_or_restore_or with hsave | hrestore | ⟨hsave, hrestore⟩
      · refine ⟨(s.after block).paint :: top, ?_, ?_⟩
        · rw [follow_save hsave, List.cons_append, ← htop]
          rfl
        · simp [hsave, isRestore_of_isSave hsave, hcount, Nat.add_assoc]
      · -- the restore has a save to go with, so there is a paint on top
        have hclosed := h _ (List.prefix_refl _)
        simp only [List.countP_append, List.countP_singleton, hrestore,
          isSave_of_isRestore hrestore, hcount, if_true, Bool.false_eq_true, if_false] at hclosed ⊢
        cases top with
        | nil => exact absurd hclosed (by simp)
        | cons paint top =>
            refine ⟨top, ?_, ?_⟩
            · rw [follow_restore_cons hrestore htop]
              rfl
            · rw [List.length_cons]
              omega
      · refine ⟨top, ?_, ?_⟩
        · rw [(follow_other hsave hrestore _).2, htop]
        · simp [hsave, hrestore, hcount]

theorem saved_after_of_balanced {block : List Instruction} (h : Balanced block) (s : Surface) :
    (s.after block).saved = s.saved := by
  obtain ⟨top, htop, hcount⟩ := exists_saved_after h.nested s
  have hnil : top = [] := List.length_eq_zero_iff.1 (by have := h.closed; omega)
  rw [htop, hnil, List.nil_append]

/-- Every paint on the stack was saved by a save that the rest of the history does not restore, and
on top of it there are the paints of the saves that come later and are open as well. -/
theorem exists_open_save {history : List Instruction} {top below : List Paint} {paint : Paint}
    (h : (run history).saved = top ++ paint :: below) :
    ∃ outer save block, history = outer ++ save :: block ∧ save.isSave ∧
      (run outer).paint = paint ∧ (run outer).saved = below ∧ Nested block ∧
      block.countP isSave = block.countP isRestore + top.length := by
  induction history using List.reverseRecOn generalizing top with
  | nil => exact absurd h (by simp [run, after, new])
  | append_singleton history i ih =>
      rw [run_concat] at h
      rcases i.save_or_restore_or with hsave | hrestore | ⟨hsave, hrestore⟩
      · rw [follow_save hsave] at h
        cases top with
        | nil =>
            obtain ⟨rfl, rfl⟩ := List.cons.inj h
            exact ⟨history, i, [], rfl, hsave, rfl, rfl, balanced_nil.nested, rfl⟩
        | cons paint' top =>
            obtain ⟨-, h⟩ := List.cons.inj h
            obtain ⟨outer, save, block, rfl, hopen, hpaint, hbelow, hnested, hcount⟩ := ih h
            refine ⟨outer, save, block ++ [i], by simp, hopen, hpaint, hbelow,
              hnested.append (nested_singleton (isRestore_of_isSave hsave)), ?_⟩
            simp [hsave, isRestore_of_isSave hsave, hcount, Nat.add_assoc]
      · cases hsaved : (run history).saved with
        | nil =>
            rw [follow_restore_nil hrestore hsaved, hsaved] at h
            exact absurd h (by simp)
        | cons paint' saved =>
            rw [follow_restore_cons hrestore hsaved] at h
            -- before the restore there was one more paint on top
            have hstack : (run history).saved = (paint' :: top) ++ paint :: below := by
              rw [hsaved, List.cons_append, ← h]
              rfl
            obtain ⟨outer, save, block, rfl, hopen, hpaint, hbelow, hnested, hcount⟩ := ih hstack
            rw [List.length_cons] at hcount
            refine ⟨outer, save, block ++ [i], by simp, hopen, hpaint, hbelow,
              hnested.concat (by omega) i, ?_⟩
            simp [hrestore, isSave_of_isRestore hrestore]
            omega
      · rw [(follow_other hsave hrestore _).2] at h
        obtain ⟨outer, save, block, rfl, hopen, hpaint, hbelow, hnested, hcount⟩ := ih h
        refine ⟨outer, save, block ++ [i], by simp, hopen, hpaint, hbelow,
          hnested.append (nested_singleton hrestore), ?_⟩
        simp [hsave, hrestore, hcount]

end Surface

end DisplayList
