import Mathlib.Data.List.Chain
import Mathlib.Data.List.Forall2
import Mathlib.Data.List.ModifyLast
import OneOS.Foundation.Table

/-!
# Blocks that name the block before them

A block has a name, and it keeps the name that the block before it has. A chain grows at its end,
and only its last block is changed, so the names that are kept stay right (`Linked`): when a block
is appended that keeps the name of the last one, when the last block is changed but for the name it
keeps, and when any block is changed but for both names. What relates every block to a record of its
own is kept in the same way (`forall₂_modifyLast`).
-/

set_option autoImplicit false
set_option relaxedAutoImplicit false

namespace OneOS.Foundation

variable {Block Name : Type*} {name kept : Block → Name} {blocks : List Block} {new : Block}
variable {change : Block → Block}

/-- Every block but the first keeps the name of the block before it. -/
def Linked (name kept : Block → Name) (blocks : List Block) : Prop :=
  blocks.IsChain fun earlier later ↦ kept later = name earlier

/-- A block that keeps the name of the last one may be appended. -/
theorem Linked.concat (hlinked : Linked name kept blocks)
    (hnew : ∀ last ∈ blocks.getLast?, kept new = name last) :
    Linked name kept (blocks ++ [new]) := by
  refine List.IsChain.append hlinked (List.isChain_singleton new) fun last hlast other hother ↦ ?_
  rw [List.head?_cons, Option.mem_some_iff] at hother
  rw [← hother]
  exact hnew last hlast

/-- The last block may be changed but for the name that it keeps. -/
theorem Linked.modifyLast (hlinked : Linked name kept blocks)
    (hkept : ∀ block, kept (change block) = kept block) :
    Linked name kept (blocks.modifyLast change) := by
  rcases List.eq_nil_or_concat blocks with rfl | ⟨init, last, rfl⟩
  · exact hlinked
  · rw [List.concat_eq_append] at hlinked ⊢
    rw [List.modifyLast_concat]
    obtain ⟨hinit, -, hlast⟩ := List.isChain_append.mp hlinked
    refine Linked.concat hinit fun before hbefore ↦ ?_
    rw [hkept]
    exact hlast before hbefore last (by simp)

/-- Any block may be changed but for both names. -/
theorem Linked.modify (hlinked : Linked name kept blocks)
    (hname : ∀ block, name (change block) = name block)
    (hkept : ∀ block, kept (change block) = kept block) (i : ℕ) :
    Linked name kept (blocks.modify i change) := by
  have hnames : ∀ chain : List Block, Linked name kept chain ↔
      (chain.map fun block ↦ (name block, kept block)).IsChain fun earlier later ↦
        later.2 = earlier.1 := by
    intro chain
    rw [List.isChain_map]
    exact Iff.rfl
  rw [hnames] at hlinked ⊢
  rwa [map_modify_of_keep]
  intro block
  rw [hname, hkept]

/-- A block that has one before it keeps its name. -/
theorem Linked.getElem? (hlinked : Linked name kept blocks) {i : ℕ} {earlier later : Block}
    (hearlier : blocks[i]? = some earlier) (hlater : blocks[i + 1]? = some later) :
    kept later = name earlier := by
  obtain ⟨hlt, rfl⟩ := List.getElem?_eq_some_iff.mp hlater
  obtain ⟨hlt', rfl⟩ := List.getElem?_eq_some_iff.mp hearlier
  exact List.isChain_iff_getElem.mp hlinked i hlt

/-- The last item stands behind the first one, if there is another one. -/
theorem modifyLast_cons_cons (first second : Block) (rest : List Block) :
    (first :: second :: rest).modifyLast change = first :: (second :: rest).modifyLast change :=
  List.modifyLast_append_of_right_ne_nil change [first] (second :: rest) (List.cons_ne_nil _ _)

/-- Changing the last items of two related lists, in a way that keeps the relation, leaves the lists
related. -/
theorem forall₂_modifyLast {Record : Type*} {relation : Block → Record → Prop}
    {records : List Record} {rewrite : Record → Record}
    (hrelated : List.Forall₂ relation blocks records)
    (hkeep : ∀ block record, relation block record → relation (change block) (rewrite record)) :
    List.Forall₂ relation (blocks.modifyLast change) (records.modifyLast rewrite) := by
  induction hrelated with
  | nil => exact .nil
  | @cons block record _ _ hfirst hlater ih =>
    cases hlater with
    | nil => exact .cons (hkeep block record hfirst) .nil
    | cons hsecond hrest =>
      rw [modifyLast_cons_cons, modifyLast_cons_cons]
      exact .cons hfirst ih

/-- A change of the last item keeps the length. -/
theorem length_modifyLast : (blocks.modifyLast change).length = blocks.length := by
  rcases List.eq_nil_or_concat blocks with rfl | ⟨init, last, rfl⟩
  · rfl
  · rw [List.concat_eq_append, List.modifyLast_concat, List.length_append, List.length_append]
    rfl

/-- Only the last item is changed. -/
theorem dropLast_modifyLast : (blocks.modifyLast change).dropLast = blocks.dropLast := by
  rcases List.eq_nil_or_concat blocks with rfl | ⟨init, last, rfl⟩
  · rfl
  · rw [List.concat_eq_append, List.modifyLast_concat, List.dropLast_concat, List.dropLast_concat]

/-- Assumes: a change keeps a property. Every item has it after the last one is changed when every
item had it before. -/
theorem forall_mem_modifyLast {property : Block → Prop} (hall : ∀ block ∈ blocks, property block)
    (hkeep : ∀ block, property block → property (change block)) :
    ∀ block ∈ blocks.modifyLast change, property block := by
  rcases List.eq_nil_or_concat blocks with rfl | ⟨init, last, rfl⟩
  · exact hall
  · rw [List.concat_eq_append] at hall ⊢
    rw [List.modifyLast_concat]
    rw [List.forall_mem_append, List.forall_mem_singleton] at hall ⊢
    exact ⟨hall.1, hkeep last hall.2⟩

end OneOS.Foundation
