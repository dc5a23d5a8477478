import DisplayList.Proofs.Surface.Nesting

/-!
# The paint in effect

A restore undoes what has been assigned since the save that it matches. `Undone` says so of an
instruction in the midst of a history, and `InEffect` of a value: it was assigned by the latest
instruction that is not undone, or it is the initial one if every assignment is undone. A canvas
holds the paint in effect behind every history, and that paint is the only one: `inEffect_iff`.
-/

namespace DisplayList

open Instruction

/-- An instruction stands between a save before it and a restore after it that match. -/
def Undone (before : List Instruction) (i : Instruction) (after : List Instruction) : Prop :=
  ∃ outer save inner inner' restore rest,
    before = outer ++ save :: inner ∧ after = inner' ++ restore :: rest ∧
      save.isSave ∧ restore.isRestore ∧ Balanced (inner ++ i :: inner')

/-- An element of two lists together is in the first or in the second. -/
theorem append_eq_append_cons {α : Type} {front rest left right : List α} {a : α}
    (h : left ++ right = front ++ a :: rest) :
    (∃ mid, left = front ++ a :: mid ∧ rest = mid ++ right) ∨
      ∃ mid, front = left ++ mid ∧ right = mid ++ a :: rest := by
  rcases List.append_eq_append_iff.1 h with ⟨mid, hfront, hright⟩ | ⟨mid, hleft, hmid⟩
  · exact .inr ⟨mid, hfront, hright⟩
  · rcases List.cons_eq_append_iff.1 hmid with ⟨rfl, hright⟩ | ⟨mid, rfl, hrest⟩
    · refine .inr ⟨[], ?_, hright⟩
      rw [hleft, List.append_nil, List.append_nil]
    · exact .inl ⟨mid, hleft, hrest⟩

section InEffect

variable {α : Type} (assigned? : Instruction → Option α)

/-- All instructions of a block that assign something are undone within the block and what comes
before it. -/
def AllUndone (before block : List Instruction) : Prop :=
  ∀ front i rest, block = front ++ i :: rest → assigned? i ≠ none → Undone (before ++ front) i rest

/-- The value that a history leaves in effect. -/
inductive InEffect (initial : α) (history : List Instruction) : α → Prop
  | /-- The latest assignment that is not undone. -/
    assigned {before : List Instruction} {i : Instruction} {after : List Instruction} {x : α} :
      history = before ++ i :: after → assigned? i = some x → ¬ Undone before i after →
      AllUndone assigned? (before ++ [i]) after → InEffect initial history x
  | /-- There is no such assignment. -/
    initial : AllUndone assigned? [] history → InEffect initial history initial

end InEffect

section

variable {α : Type} {assigned? : Instruction → Option α} {initial : α}

theorem Undone.append {before after : List Instruction} {i : Instruction}
    (h : Undone before i after) (block : List Instruction) : Undone before i (after ++ block) := by
  obtain ⟨outer, save, inner, inner', restore, rest, hbefore, rfl, hsave, hrestore, hinner⟩ := h
  exact ⟨outer, save, inner, inner', restore, rest ++ block, hbefore, by simp, hsave, hrestore,
    hinner⟩

/-- A nested block has no restore that matches a save before it. -/
theorem undone_append_iff {block : List Instruction} (h : Nested block)
    {before after : List Instruction} {i : Instruction} :
    Undone before i (after ++ block) ↔ Undone before i after := by
  constructor
  · rintro ⟨outer, save, inner, inner', restore, rest, hbefore, hafter, hsave, hrestore, hinner⟩
    rcases append_eq_append_cons hafter with ⟨mid, hmid, -⟩ | ⟨mid, rfl, hblock⟩
    · exact ⟨outer, save, inner, inner', restore, mid, hbefore, hmid, hsave, hrestore, hinner⟩
    · have hpart := h (mid ++ [restore]) ⟨rest, by rw [hblock]; simp⟩
      have hfront := hinner.nested (inner ++ i :: after) ⟨mid, by simp⟩
      have hclosed := hinner.closed
      simp [hrestore, isSave_of_isRestore hrestore, List.countP_cons] at hpart hfront hclosed
      omega
  · intro hundone
    exact hundone.append block

theorem allUndone_nil (before : List Instruction) : AllUndone assigned? before [] := by
  intro front i rest h
  exact absurd h (by simp)

theorem allUndone_singleton {i : Instruction} (h : assigned? i = none)
    (before : List Instruction) : AllUndone assigned? before [i] := by
  intro front j rest hsplit hj
  rcases List.singleton_eq_append_iff.1 hsplit with hsplit | hsplit
  · obtain ⟨rfl, -⟩ := List.cons.inj hsplit.2
    exact absurd h hj
  · exact absurd hsplit.2 (List.cons_ne_nil _ _)

theorem AllUndone.append {before block later : List Instruction}
    (h : AllUndone assigned? before block) (hlater : AllUndone assigned? (before ++ block) later) :
    AllUndone assigned? before (block ++ later) := by
  intro front i rest hsplit hi
  rcases append_eq_append_cons hsplit with ⟨mid, hblock, rfl⟩ | ⟨mid, rfl, hmid⟩
  · exact (h front i mid hblock hi).append later
  · rw [← List.append_assoc]
    exact hlater mid i rest hmid hi

/-- What stands between a save and the restore that matches it is undone. -/
theorem allUndone_wrap {save restore : Instruction} {block : List Instruction}
    (hsave : save.isSave) (hrestore : restore.isRestore) (h : Balanced block)
    (hsave' : assigned? save = none) (hrestore' : assigned? restore = none)
    (before : List Instruction) :
    AllUndone assigned? before (save :: (block ++ [restore])) := by
  intro front i rest hsplit hi
  rcases List.cons_eq_append_iff.1 hsplit with ⟨rfl, hfirst⟩ | ⟨mid, rfl, hmid⟩
  · obtain ⟨rfl, -⟩ := List.cons.inj hfirst
    exact absurd hsave' hi
  · rcases append_eq_append_cons hmid with ⟨inner, rfl, rfl⟩ | ⟨inner, rfl, hlast⟩
    · exact ⟨before, save, mid, inner, restore, [], rfl, rfl, hsave, hrestore, h⟩
    · have hundone := allUndone_singleton hrestore' (before ++ save :: block) inner i rest hlast hi
      rwa [List.append_assoc, List.cons_append] at hundone

theorem InEffect.append {history block : List Instruction} {x : α}
    (h : InEffect assigned? initial history x) (hblock : AllUndone assigned? history block)
    (hkeeps : ∀ before i after, history = before ++ i :: after →
      Undone before i (after ++ block) → Undone before i after) :
    InEffect assigned? initial (history ++ block) x := by
  cases h with
  | @assigned before i after _ hsplit hi hstands hlater =>
      subst hsplit
      have hsplit : before ++ i :: after ++ block = before ++ i :: (after ++ block) := by simp
      refine .assigned hsplit hi ?_ (hlater.append ?_)
      · intro hundone
        exact hstands (hkeeps before i after rfl hundone)
      · rwa [List.append_assoc]
  | initial hall => exact .initial (hall.append hblock)

/-- An assignment that is not undone does not come after the latest one. -/
theorem length_le_of_not_undone {before before' after after' : List Instruction}
    {i i' : Instruction} (hlater : AllUndone assigned? (before ++ [i]) after)
    (hi' : assigned? i' ≠ none) (hstands' : ¬ Undone before' i' after')
    (h : before ++ i :: after = before' ++ i' :: after') : before'.length ≤ before.length := by
  rcases append_eq_append_cons h with ⟨mid, rfl, -⟩ | ⟨mid, rfl, hmid⟩
  · simp
  · cases mid with
    | nil => simp
    | cons j mid =>
        obtain ⟨rfl, hafter⟩ := List.cons.inj hmid
        have hundone := hlater mid i' after' hafter hi'
        rw [List.append_assoc] at hundone
        exact absurd hundone hstands'

theorem InEffect.unique {history : List Instruction} {x y : α}
    (hx : InEffect assigned? initial history x) (hy : InEffect assigned? initial history y) :
    x = y := by
  cases hx with
  | @assigned before i after _ hsplit hi hstands hlater =>
      have hi' : assigned? i ≠ none := by simp [hi]
      cases hy with
      | @assigned before' j after' _ hsplit' hj hstands' hlater' =>
          have hj' : assigned? j ≠ none := by simp [hj]
          have heq : before ++ i :: after = before' ++ j :: after' := hsplit.symm.trans hsplit'
          have hle := length_le_of_not_undone hlater hj' hstands' heq
          have hge := length_le_of_not_undone hlater' hi' hstands heq.symm
          obtain ⟨-, htail⟩ := List.append_inj heq (Nat.le_antisymm hge hle)
          obtain ⟨rfl, -⟩ := List.cons.inj htail
          exact Option.some.inj (hi.symm.trans hj)
      | initial hall => exact absurd (hall before i after hsplit hi') hstands
  | initial hall =>
      cases hy with
      | @assigned before j after _ hsplit hj hstands _ =>
          exact absurd (hall before j after hsplit (by simp [hj])) hstands
      | initial _ => rfl

end

namespace Surface

/-- A part of the paint that is assigned by some instructions, none of which is a call. -/
structure Tracked {α : Type} (get : Paint → α) (assigned? : Instruction → Option α) : Prop where
  repaint : ∀ i p, get (i.repaint p) = (assigned? i).getD (get p)
  call : ∀ op args, assigned? (.call op args) = none

theorem tracked_color (b : Brush) : Tracked b.color (color? b) where
  repaint _ _ := by cases b <;> rfl
  call _ _ := rfl

theorem tracked_opacity : Tracked Paint.alpha opacity? where
  repaint _ _ := rfl
  call _ _ := rfl

section Tracked

variable {α : Type} {get : Paint → α} {assigned? : Instruction → Option α}

theorem Tracked.save (ht : Tracked get assigned?) {i : Instruction} (h : i.isSave) :
    assigned? i = none := by
  obtain ⟨args, rfl⟩ := exists_of_isSave h
  exact ht.call _ args

theorem Tracked.restore (ht : Tracked get assigned?) {i : Instruction} (h : i.isRestore) :
    assigned? i = none := by
  obtain ⟨args, rfl⟩ := exists_of_isRestore h
  exact ht.call _ args

end Tracked

/-- Behind an open save, the paint that it saved is on top of the stack. -/
theorem saved_run_of_open {outer block : List Instruction} {save : Instruction}
    (hsave : save.isSave) (h : Balanced block) :
    (run (outer ++ save :: block)).saved = (run outer).paint :: (run outer).saved := by
  have hsplit : outer ++ save :: block = outer ++ [save] ++ block := by simp
  rw [run, hsplit, after_append, saved_after_of_balanced h, after_concat, follow_save hsave]
  rfl

/-- A restore with nothing to restore undoes nothing. -/
theorem undone_of_saved_nil {before after : List Instruction} {i restore : Instruction}
    (hsaved : (run (before ++ i :: after)).saved = [])
    (h : Undone before i (after ++ [restore])) : Undone before i after := by
  obtain ⟨outer, save, inner, inner', restore', rest, rfl, hafter, hsave, hrestore, hinner⟩ := h
  rcases append_eq_append_cons hafter with ⟨mid, hmid, -⟩ | ⟨mid, rfl, hlast⟩
  · exact ⟨outer, save, inner, inner', restore', mid, rfl, hmid, hsave, hrestore, hinner⟩
  · rcases List.singleton_eq_append_iff.1 hlast with ⟨rfl, -⟩ | ⟨-, hnil⟩
    · rw [List.append_nil] at hinner
      rw [List.append_assoc, List.cons_append, saved_run_of_open hsave hinner] at hsaved
      exact absurd hsaved (List.cons_ne_nil _ _)
    · exact absurd hnil (List.cons_ne_nil _ _)

section Run

variable {α : Type} {get : Paint → α} {assigned? : Instruction → Option α}

/-- One more instruction keeps a part of the paint in effect, if it was so throughout. A restore
goes back to the paint that its save found. -/
theorem inEffect_concat (ht : Tracked get assigned?) {history : List Instruction}
    (h : ∀ front, front <+: history → InEffect assigned? (get {}) front (get (run front).paint))
    (i : Instruction) :
    InEffect assigned? (get {}) (history ++ [i]) (get (run (history ++ [i])).paint) := by
  have hwhole := h history (List.prefix_refl history)
  rw [run_concat]
  rcases i.save_or_restore_or with hsave | hrestore | ⟨hsave, hrestore⟩
  · rw [follow_save hsave]
    have hnested := nested_singleton (isRestore_of_isSave hsave)
    exact hwhole.append (allUndone_singleton (ht.save hsave) history)
      fun before j after _ => (undone_append_iff hnested).1
  · cases hsaved : (run history).saved with
    | nil =>
        rw [follow_restore_nil hrestore hsaved]
        refine hwhole.append (allUndone_singleton (ht.restore hrestore) history) ?_
        rintro before j after rfl hundone
        exact undone_of_saved_nil hsaved hundone
    | cons paint below =>
        rw [follow_restore_cons hrestore hsaved]
        have hstack : (run history).saved = [] ++ paint :: below := hsaved
        obtain ⟨outer, save, block, rfl, hsave, rfl, -, hnested, hcount⟩ := exists_open_save hstack
        have hblock : Balanced block := ⟨hnested, hcount.symm⟩
        have hsplit : outer ++ save :: block ++ [i] = outer ++ save :: (block ++ [i]) := by simp
        rw [hsplit]
        exact (h outer (List.prefix_append outer _)).append
          (allUndone_wrap hsave hrestore hblock (ht.save hsave) (ht.restore hrestore) outer)
          fun before j after _ => (undone_append_iff (hblock.wrap hsave hrestore).nested).1
  · rw [(follow_other hsave hrestore _).1, ht.repaint]
    cases hi : assigned? i with
    | none =>
        exact hwhole.append (allUndone_singleton hi history)
          fun before j after _ => (undone_append_iff (nested_singleton hrestore)).1
    | some x =>
        refine .assigned rfl hi ?_ (allUndone_nil _)
        rintro ⟨outer, save, inner, inner', restore, rest, -, hnil, -⟩
        exact absurd hnil (by simp)

/-- What a canvas paints with is what its history leaves in effect. -/
theorem inEffect_run (ht : Tracked get assigned?) (history : List Instruction) :
    InEffect assigned? (get {}) history (get (run history).paint) := by
  -- a restore looks back past the last instruction, hence the prefixes
  suffices h : ∀ front, front <+: history →
      InEffect assigned? (get {}) front (get (run front).paint) from
    h history (List.prefix_refl history)
  induction history using List.reverseRecOn with
  | nil =>
      intro front hfront
      rw [List.prefix_nil.1 hfront]
      exact .initial (allUndone_nil [])
  | append_singleton history i ih =>
      intro front hfront
      rcases List.prefix_concat_iff.1 hfront with rfl | hfront
      · exact inEffect_concat ht ih i
      · exact ih front hfront

theorem inEffect_iff (ht : Tracked get assigned?) (history : List Instruction) (x : α) :
    InEffect assigned? (get {}) history x ↔ x = get (run history).paint := by
  constructor
  · intro h
    exact h.unique (inEffect_run ht history)
  · rintro rfl
    exact inEffect_run ht history

end Run

end Surface

end DisplayList
