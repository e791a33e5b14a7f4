import Mathlib.Logic.Function.Basic

/-!
# Links of a chain that were cut

Two relations lead from `A` over `B` to `C`, and single links of either of them have been cut. A cut
takes effect when nothing leads from `A` to `C` through a link that was cut. A link may be left
behind by a cut as long as it leads nowhere: then it is the next link made on the other side that
matters.

`Severed` is unchanged when the chain is read backwards (`severed_flip_iff`), so every lemma about
the first relation is one about the second.
-/

set_option autoImplicit false
set_option relaxedAutoImplicit false

namespace OneOS.Foundation

variable {A B C : Type*}

/-- Nothing leads through a link that was cut: a link of the first relation that was cut and is
still there leads to a point with no link onwards, and a link of the second that was cut and is
still there starts at a point to which no link leads. -/
structure Severed (first : A → B → Prop) (second : B → C → Prop) (cutFirst : A → B → Prop)
    (cutSecond : B → C → Prop) : Prop where
  ahead : ∀ a b, cutFirst a b → first a b → ∀ c, ¬ second b c
  behind : ∀ b c, cutSecond b c → second b c → ∀ a, ¬ first a b

variable {first first' cutFirst cutFirst' : A → B → Prop}
variable {second second' cutSecond cutSecond' : B → C → Prop}

/-- The chain may be read backwards. -/
theorem severed_flip_iff :
    Severed (flip second) (flip first) (flip cutSecond) (flip cutFirst) ↔
      Severed first second cutFirst cutSecond := by
  constructor
  · rintro ⟨hahead, hbehind⟩
    exact ⟨fun a b hcut hlink c hnext ↦ hbehind b a hcut hlink c hnext,
      fun b c hcut hlink a hbefore ↦ hahead c b hcut hlink a hbefore⟩
  · rintro ⟨hahead, hbehind⟩
    exact ⟨fun c b hcut hlink a hbefore ↦ hbehind b c hcut hlink a hbefore,
      fun b a hcut hlink c hnext ↦ hahead a b hcut hlink c hnext⟩

/-- A new link of the first relation, which is no longer cut, keeps the cuts in effect exactly when
no link onwards from its end was cut and is still there. -/
theorem Severed.join_first_iff (hsevered : Severed first second cutFirst cutSecond) (a : A) (b : B)
    (hjoin : ∀ a' b', first' a' b' ↔ first a' b' ∨ a' = a ∧ b' = b)
    (hcut : ∀ a' b', cutFirst' a' b' ↔ cutFirst a' b' ∧ ¬ (a' = a ∧ b' = b)) :
    Severed first' second cutFirst' cutSecond ↔ ∀ c, cutSecond b c → ¬ second b c := by
  constructor
  · intro hafter c hcutSecond hlink
    exact hafter.behind b c hcutSecond hlink a ((hjoin a b).mpr (.inr ⟨rfl, rfl⟩))
  · intro hnone
    refine ⟨fun a' b' hcutFirst hlink ↦ ?_, fun b' c hcutSecond hlink a' hbefore ↦ ?_⟩
    · obtain ⟨hold, hother⟩ := (hcut a' b').mp hcutFirst
      exact hsevered.ahead a' b' hold (((hjoin a' b').mp hlink).resolve_right hother)
    · rcases (hjoin a' b').mp hbefore with hold | ⟨-, rfl⟩
      · exact hsevered.behind b' c hcutSecond hlink a' hold
      · exact hnone c hcutSecond hlink

/-- A new cut of a link of the first relation, with no new links, takes effect exactly when the link
is gone or leads nowhere. -/
theorem Severed.cut_first_iff (hsevered : Severed first second cutFirst cutSecond) (a : A) (b : B)
    (hless : ∀ a' b', first' a' b' → first a' b')
    (hcut : ∀ a' b', cutFirst' a' b' ↔ cutFirst a' b' ∨ a' = a ∧ b' = b) :
    Severed first' second cutFirst' cutSecond ↔ (first' a b → ∀ c, ¬ second b c) := by
  constructor
  · intro hafter hlink
    exact hafter.ahead a b ((hcut a b).mpr (.inr ⟨rfl, rfl⟩)) hlink
  · intro hnone
    refine ⟨fun a' b' hcutFirst hlink ↦ ?_, fun b' c hcutSecond hlink a' hbefore ↦ ?_⟩
    · rcases (hcut a' b').mp hcutFirst with hold | ⟨rfl, rfl⟩
      · exact hsevered.ahead a' b' hold (hless a' b' hlink)
      · exact hnone hlink
    · exact hsevered.behind b' c hcutSecond hlink a' (hless a' b' hbefore)

/-- A new link of the second relation. -/
theorem Severed.join_second_iff (hsevered : Severed first second cutFirst cutSecond) (b : B) (c : C)
    (hjoin : ∀ b' c', second' b' c' ↔ second b' c' ∨ b' = b ∧ c' = c)
    (hcut : ∀ b' c', cutSecond' b' c' ↔ cutSecond b' c' ∧ ¬ (b' = b ∧ c' = c)) :
    Severed first second' cutFirst cutSecond' ↔ ∀ a, cutFirst a b → ¬ first a b := by
  rw [← severed_flip_iff]
  refine (severed_flip_iff.mpr hsevered).join_first_iff c b (fun c' b' ↦ ?_) fun c' b' ↦ ?_
  · exact (hjoin b' c').trans (or_congr_right and_comm)
  · exact (hcut b' c').trans (and_congr_right' (not_congr and_comm))

/-- A new cut of a link of the second relation. -/
theorem Severed.cut_second_iff (hsevered : Severed first second cutFirst cutSecond) (b : B) (c : C)
    (hless : ∀ b' c', second' b' c' → second b' c')
    (hcut : ∀ b' c', cutSecond' b' c' ↔ cutSecond b' c' ∨ b' = b ∧ c' = c) :
    Severed first second' cutFirst cutSecond' ↔ (second' b c → ∀ a, ¬ first a b) := by
  rw [← severed_flip_iff]
  refine (severed_flip_iff.mpr hsevered).cut_first_iff c b (fun c' b' ↦ hless b' c')
    fun c' b' ↦ ?_
  exact (hcut b' c').trans (or_congr_right and_comm)

end OneOS.Foundation
