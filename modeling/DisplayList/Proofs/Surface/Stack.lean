import DisplayList.Proofs.Surface.Nesting

/-!
# The stack of saved states

A canvas keeps a stack of paints, and the context that it drives keeps a stack of states of its own.
`Reaches` follows the height of the latter through some commands, and there is no way on from a
restore at height zero. After every instruction both stacks are of one height, which is the number
of saves that no later restore matches: `length_saved_after`. What stands between a save and the
restore that matches it leaves no trace on the canvas, apart from what was issued.
-/

namespace DisplayList

open Instruction

namespace Command

/-- Some commands take the stack of a context from one height to another. A state has to be saved
before it can be restored. -/
inductive Reaches : (height : Nat) → List Command → (height' : Nat) → Prop
  | nil (n : Nat) : Reaches n [] n
  | save {n k : Nat} {cs : List Command} : Reaches (n + 1) cs k → Reaches n (.save :: cs) k
  | restore {n k : Nat} {cs : List Command} : Reaches n cs k → Reaches (n + 1) (.restore :: cs) k
  | other {n k : Nat} {c : Command} {cs : List Command} : c ≠ .save → c ≠ .restore →
      Reaches n cs k → Reaches n (c :: cs) k

theorem Reaches.append {n m k : Nat} {cs ds : List Command} (h : Reaches n cs m)
    (hlater : Reaches m ds k) : Reaches n (cs ++ ds) k := by
  induction h with
  | nil n => exact hlater
  | save _ ih => exact .save (ih hlater)
  | restore _ ih => exact .restore (ih hlater)
  | other hsave hrestore _ ih => exact .other hsave hrestore (ih hlater)

theorem Reaches.count_eq {n k : Nat} {cs : List Command} (h : Reaches n cs k) :
    n + cs.count .save = k + cs.count .restore := by
  induction h with
  | nil n => rfl
  | save _ ih =>
      rw [List.count_cons_self, List.count_cons_of_ne (by decide)]
      omega
  | restore _ ih =>
      rw [List.count_cons_self, List.count_cons_of_ne (by decide)]
      omega
  | other hsave hrestore _ ih =>
      rw [List.count_cons_of_ne hsave, List.count_cons_of_ne hrestore, ih]

/-- No more states are restored than there were and have been saved, at any point on the way. -/
theorem Reaches.count_restore_le {n k : Nat} {cs front : List Command} (h : Reaches n cs k)
    (hfront : front <+: cs) : front.count .restore ≤ n + front.count .save := by
  induction h generalizing front with
  | nil n =>
      rw [List.prefix_nil.1 hfront]
      exact Nat.zero_le _
  | save _ ih =>
      rcases List.prefix_cons_iff.1 hfront with rfl | ⟨part, rfl, hpart⟩
      · exact Nat.zero_le _
      · have hle := ih hpart
        rw [List.count_cons_self, List.count_cons_of_ne (by decide)]
        omega
  | restore _ ih =>
      rcases List.prefix_cons_iff.1 hfront with rfl | ⟨part, rfl, hpart⟩
      · exact Nat.zero_le _
      · have hle := ih hpart
        rw [List.count_cons_self, List.count_cons_of_ne (by decide)]
        omega
  | other hsave hrestore _ ih =>
      rcases List.prefix_cons_iff.1 hfront with rfl | ⟨part, rfl, hpart⟩
      · exact Nat.zero_le _
      · rw [List.count_cons_of_ne hsave, List.count_cons_of_ne hrestore]
        exact ih hpart

end Command

namespace Instruction

/-- Among the instructions behind a save there is a restore that matches it. -/
def Restored (later : List Instruction) : Prop :=
  ∃ inner restore rest, later = inner ++ restore :: rest ∧ restore.isRestore ∧ Balanced inner

/-- How many restores in a block match no save in it. -/
def unmatched : List Instruction → Nat
  | [] => 0
  | i :: later =>
    if i.isSave then unmatched later - 1
    else if i.isRestore then unmatched later + 1
    else unmatched later

/-- Started inside of some saves, a block has restores for no more than these, at any point. -/
theorem unmatched_le_iff {block : List Instruction} {n : Nat} :
    unmatched block ≤ n ↔
      ∀ front, front <+: block → front.countP isRestore ≤ n + front.countP isSave := by
  induction block generalizing n with
  | nil => simp [unmatched]
  | cons i later ih =>
      have hcons : (∀ front, front <+: i :: later →
            front.countP isRestore ≤ n + front.countP isSave) ↔
          ∀ front, front <+: later →
            (i :: front).countP isRestore ≤ n + (i :: front).countP isSave := by
        constructor
        · intro h front hfront
          exact h _ (List.cons_prefix_cons.2 ⟨rfl, hfront⟩)
        · intro h front hfront
          rcases List.prefix_cons_iff.1 hfront with rfl | ⟨part, rfl, hpart⟩
          · exact Nat.zero_le _
          · exact h part hpart
      rw [hcons, unmatched]
      rcases i.save_or_restore_or with hsave | hrestore | ⟨hsave, hrestore⟩
      · rw [if_pos hsave, Nat.sub_le_iff_le_add, ih]
        refine forall₂_congr fun front _ => ?_
        rw [List.countP_cons_of_pos hsave,
          List.countP_cons_of_neg (by simp [isRestore_of_isSave hsave])]
        omega
      · have hsave := isSave_of_isRestore hrestore
        rw [if_neg (by simp [hsave]), if_pos hrestore]
        cases n with
        | zero =>
            refine iff_of_false (Nat.not_succ_le_zero _) fun h => ?_
            have hfirst := h [] List.nil_prefix
            simp [hrestore, hsave] at hfirst
        | succ n =>
            rw [Nat.succ_le_succ_iff, ih]
            refine forall₂_congr fun front _ => ?_
            rw [List.countP_cons_of_pos hrestore, List.countP_cons_of_neg (by simp [hsave])]
            omega
      · rw [if_neg (by simp [hsave]), if_neg (by simp [hrestore]), ih]
        refine forall₂_congr fun front _ => ?_
        rw [List.countP_cons_of_neg (by simp [hrestore]), List.countP_cons_of_neg (by simp [hsave])]

theorem nested_iff_unmatched {block : List Instruction} : Nested block ↔ unmatched block = 0 := by
  rw [← Nat.le_zero, unmatched_le_iff]
  simp only [Nat.zero_add, Nested]

/-- A block stops being nested with a restore that has only a balanced block before it. -/
theorem restored_iff_not_nested {later : List Instruction} : Restored later ↔ ¬ Nested later := by
  constructor
  · rintro ⟨inner, restore, rest, rfl, hrestore, hinner⟩ h
    have hle := h (inner ++ [restore]) ⟨rest, by simp⟩
    have hclosed := hinner.closed
    simp [hrestore, isSave_of_isRestore hrestore] at hle
    omega
  · intro h
    induction later using List.reverseRecOn with
    | nil => exact absurd balanced_nil.nested h
    | append_singleton block i ih =>
        by_cases hblock : Nested block
        · have hle := hblock block (List.prefix_refl block)
          have hclosed : block.countP isRestore = block.countP isSave := by
            by_contra hne
            exact h (hblock.concat (Nat.lt_of_le_of_ne hle hne) i)
          have hi : i.isRestore := by
            by_contra hi
            exact h (hblock.append (nested_singleton (Bool.eq_false_iff.2 hi)))
          exact ⟨block, i, [], rfl, hi, hblock, hclosed⟩
        · obtain ⟨inner, restore, rest, rfl, hrestore, hinner⟩ := ih hblock
          exact ⟨inner, restore, rest ++ [i], by simp, hrestore, hinner⟩

instance : DecidablePred Restored := fun later =>
  decidable_of_iff (unmatched later ≠ 0)
    (by rw [restored_iff_not_nested, nested_iff_unmatched])

/-- How many saves no later restore matches. -/
def openSaves : List Instruction → Nat
  | [] => 0
  | i :: later => (if i.isSave ∧ ¬ Restored later then 1 else 0) + openSaves later

theorem openSaves_cons (i : Instruction) (later : List Instruction) :
    openSaves (i :: later) =
      (if i.isSave ∧ unmatched later = 0 then 1 else 0) + openSaves later := by
  have hopen : (i.isSave ∧ ¬ Restored later) ↔ (i.isSave ∧ unmatched later = 0) := by
    rw [restored_iff_not_nested, not_not, nested_iff_unmatched]
  simp only [openSaves, hopen]

end Instruction

namespace Surface

theorem after_cons (s : Surface) (i : Instruction) (later : List Instruction) :
    s.after (i :: later) = (receiver.follow i s).state.after later := rfl

/-- Restores without a match take from the stack that was there before, and the open saves of a
block come on top. -/
theorem length_saved_after (block : List Instruction) (s : Surface) :
    (s.after block).saved.length = s.saved.length - unmatched block + openSaves block := by
  induction block generalizing s with
  | nil => rfl
  | cons i later ih =>
      rw [after_cons, ih, unmatched, openSaves_cons]
      rcases i.save_or_restore_or with hsave | hrestore | ⟨hsave, hrestore⟩
      · have hlength : (receiver.follow i s).state.saved.length = s.saved.length + 1 := by
          rw [follow_save hsave]
          rfl
        rw [if_pos hsave, hlength]
        -- the paint saved here stays unless a later restore is left over for it
        rcases Nat.eq_zero_or_pos (unmatched later) with hzero | hpos
        · rw [if_pos ⟨hsave, hzero⟩]
          omega
        · rw [if_neg (by omega)]
          omega
      · have hlength : (receiver.follow i s).state.saved.length = s.saved.length - 1 := by
          cases hsaved : s.saved with
          | nil => rw [follow_restore_nil hrestore hsaved, hsaved]; rfl
          | cons paint saved => rw [follow_restore_cons hrestore hsaved]; rfl
        have hsave := isSave_of_isRestore hrestore
        rw [if_neg (by simp [hsave]), if_pos hrestore, if_neg (by simp [hsave]), hlength]
        omega
      · rw [if_neg (by simp [hsave]), if_neg (by simp [hrestore]), if_neg (by simp [hsave]),
          (follow_other hsave hrestore s).2]
        omega

theorem length_saved_run (history : List Instruction) :
    (run history).saved.length = openSaves history := by
  have hnew : new.saved.length = 0 := rfl
  rw [run, length_saved_after, hnew, Nat.zero_sub, Nat.zero_add]

theorem drawing?_ne {i : Instruction} {brush : Brush} {drawing : Command}
    (h : i.drawing? = some (brush, drawing)) : drawing ≠ .save ∧ drawing ≠ .restore := by
  unfold drawing? at h
  split at h
  all_goals cases h
  all_goals exact ⟨nofun, nofun⟩

theorem reaches_pathKept {n k : Nat} {cs : List Command} (h : Command.Reaches n cs k) :
    Command.Reaches n (pathKept cs) k := by
  have hend : Command.Reaches k [.newPath, .appendPath] k :=
    .other nofun nofun (.other nofun nofun (.nil k))
  exact .other nofun nofun (.other nofun nofun (h.append hend))

/-- A rectangle is cleared between a save and a restore, and no other call but these two themselves
moves the stack. -/
theorem reaches_of_commands {p : Paint} {m : Method} {args : List Value} {issued : List Command}
    (hsave : m ≠ .save) (hrestore : m ≠ .restore) (h : commands p m args = .ok issued) (n : Nat) :
    Command.Reaches n issued n := by
  rcases commands_cases hsave hrestore h with ⟨brush, drawing, hdrawing, hissued⟩ | ⟨-, hissued⟩
  · obtain ⟨hdsave, hdrestore⟩ := drawing?_ne hdrawing
    have hend : Command.Reaches n [drawing] n := .other hdsave hdrestore (.nil n)
    rcases hissued with rfl | ⟨x, y, width, height, rfl⟩
    · exact .other nofun nofun hend
    · exact .other nofun nofun (reaches_pathKept (.other nofun nofun hend))
  · rcases hissued with rfl | ⟨piece, rfl⟩ | ⟨x, y, width, height, rfl⟩
    · exact .other nofun nofun (.nil n)
    · exact .other nofun nofun (.nil n)
    · have hpair : Command.Reaches n [.save, .setOperator .clear, .fill, .restore] n :=
        .save (.other nofun nofun (.other nofun nofun (.restore (.nil n))))
      exact reaches_pathKept (.other nofun nofun hpair)

/-- The commands of an instruction keep the stack of the context as high as that of the canvas. -/
theorem reaches_follow (i : Instruction) (s : Surface) :
    ∃ issued, (receiver.follow i s).state.issued = s.issued ++ issued ∧
      Command.Reaches s.saved.length issued (receiver.follow i s).state.saved.length := by
  obtain ⟨issued, hissued, hcases⟩ := issued_cases i s
  refine ⟨issued, hissued, ?_⟩
  rcases hcases with ⟨rfl, hsaved⟩ | ⟨rfl, paint, hsaved⟩ | ⟨hsaved, hcases⟩
  · rw [hsaved]
    exact .save (.nil _)
  · rw [hsaved]
    exact .restore (.nil _)
  · rw [hsaved]
    rcases hcases with rfl | ⟨c, hc, rfl⟩ | ⟨m, args, -, hm, hm', hcall, -⟩
    · exact .nil _
    · have hne : c ≠ .save ∧ c ≠ .restore := by
        constructor
        all_goals
          rintro rfl
          exact absurd hc nofun
      exact .other hne.1 hne.2 (.nil _)
    · exact reaches_of_commands hm hm' hcall _

/-- So do the commands of some instructions, one after the other. -/
theorem reaches_after (block : List Instruction) (s : Surface) :
    ∃ issued, (s.after block).issued = s.issued ++ issued ∧
      Command.Reaches s.saved.length issued (s.after block).saved.length := by
  induction block generalizing s with
  | nil => exact ⟨[], (List.append_nil _).symm, .nil _⟩
  | cons i later ih =>
      obtain ⟨issued, hissued, hreaches⟩ := reaches_follow i s
      obtain ⟨issued', hissued', hreaches'⟩ := ih (receiver.follow i s).state
      refine ⟨issued ++ issued', ?_, hreaches.append hreaches'⟩
      rw [after_cons, hissued', hissued, List.append_assoc]

/-- A restore takes back what has been done since the save that it matches, apart from what was
issued. -/
theorem paint_saved_after_wrap {save restore : Instruction} {block : List Instruction}
    (hsave : save.isSave) (hblock : Balanced block) (hrestore : restore.isRestore) (s : Surface) :
    (s.after (save :: (block ++ [restore]))).paint = s.paint ∧
      (s.after (save :: (block ++ [restore]))).saved = s.saved := by
  have hstack : ((receiver.follow save s).state.after block).saved = s.paint :: s.saved := by
    rw [saved_after_of_balanced hblock, follow_save hsave]
    rfl
  rw [after_cons, after_concat, follow_restore_cons hrestore hstack]
  exact ⟨rfl, rfl⟩

/-- A new canvas never restores more states of its context than it has saved. After every
instruction the saves without a restore are as many as the paints on the stack, and as many as the
instructions to save that no later one matches. A save is always followed, and a restore with an
empty stack has no effect. Between a save and the restore that matches it, a canvas may do what it
likes: paint and stack are as before. -/
theorem stacks_in_step :
    (∀ history : List Instruction,
        (∀ front, front <+: (run history).issued → front.count .restore ≤ front.count .save) ∧
          (run history).issued.count .save =
            (run history).issued.count .restore + (run history).saved.length ∧
          (run history).saved.length = openSaves history) ∧
      (∀ (save : Instruction) (s : Surface), save.isSave → (receiver.follow save s).fault = none) ∧
      (∀ (restore : Instruction) (s : Surface), restore.isRestore → s.saved = [] →
        (receiver.follow restore s).state = s) ∧
      ∀ (save restore : Instruction) (block : List Instruction) (s : Surface),
        save.isSave → Balanced block → restore.isRestore →
          (s.after (save :: (block ++ [restore]))).paint = s.paint ∧
            (s.after (save :: (block ++ [restore]))).saved = s.saved := by
  refine ⟨fun history => ?_, ?_, ?_, ?_⟩
  · obtain ⟨issued, hissued, hreaches⟩ := reaches_after history .new
    have hrun : (run history).issued = issued := hissued
    have hbottom : new.saved.length = 0 := rfl
    rw [hbottom] at hreaches
    rw [hrun]
    refine ⟨fun front hfront => ?_, ?_, length_saved_run history⟩
    · have hle := hreaches.count_restore_le hfront
      rwa [Nat.zero_add] at hle
    · have hcount := hreaches.count_eq
      rwa [Nat.zero_add, Nat.add_comm] at hcount
  · intro save s hsave
    obtain ⟨args, rfl⟩ := exists_of_isSave hsave
    rfl
  · intro restore s hrestore hsaved
    exact follow_restore_nil hrestore hsaved
  · intro save restore block s hsave hblock hrestore
    exact paint_saved_after_wrap hsave hblock hrestore s

/-- A color is assigned, a line is turned down and a rectangle is cleared between a save and its
restore. In front of them stands a restore with nothing to restore. -/
theorem stacks_in_step_cleared :
    (receiver.follow (.call Method.restore []) new).state = new ∧
      (receiver.follow (.call Method.save []) new).fault = none ∧
      (run [.call Method.restore [], .call Method.save [],
        .call Method.clearRect [.number 0, .number 0, .number 2, .number 2]]).saved.length = 1 ∧
      Balanced [.set Property.strokeStyle (.text "none"), .call Method.lineTo [.number 1],
        .call Method.clearRect [.number 0, .number 0, .number 2, .number 2]] ∧
      (new.after [.call Method.save [], .set Property.strokeStyle (.text "none"),
        .call Method.lineTo [.number 1],
        .call Method.clearRect [.number 0, .number 0, .number 2, .number 2],
        .call Method.restore []]).paint = {} := by
  have hblock : Balanced [.set Property.strokeStyle (.text "none"),
      .call Method.lineTo [.number 1],
      .call Method.clearRect [.number 0, .number 0, .number 2, .number 2]] :=
    ⟨nested_iff_unmatched.2 rfl, rfl⟩
  refine ⟨stacks_in_step.2.2.1 _ _ rfl rfl, stacks_in_step.2.1 _ _ rfl, ?_, hblock,
    (stacks_in_step.2.2.2 (.call Method.save []) (.call Method.restore []) _ new rfl hblock rfl).1⟩
  rw [(stacks_in_step.1 _).2.2]
  decide

end Surface

end DisplayList
