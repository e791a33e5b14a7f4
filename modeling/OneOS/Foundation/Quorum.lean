import Mathlib.Data.Finset.Card

/-!
# Votes and majorities

A record of votes is a finite set of `Vote`s: who voted, in which term, for whom. A candidate is
elected in a term when more than half of a fixed electorate has voted for it there (`Elected`, with
the bound `n / 2 + 1` that programs compute).

Two majorities of one electorate share a voter, so a record in which nobody votes twice in a term
elects at most one candidate in each term (`Elected.unique`). `Elected.mono` lets the record grow.
-/

set_option autoImplicit false
set_option relaxedAutoImplicit false

namespace OneOS.Foundation

/-- A vote that was cast. -/
structure Vote (Voter Term Candidate : Type*) where
  voter : Voter
  term : Term
  candidate : Candidate
  deriving DecidableEq

variable {Voter Term Candidate : Type*}

/-- Nobody votes for two candidates in one term. -/
def OneVotePerTerm (votes : Finset (Vote Voter Term Candidate)) : Prop :=
  ∀ first ∈ votes, ∀ second ∈ votes, first.voter = second.voter → first.term = second.term →
    first.candidate = second.candidate

variable [DecidableEq Voter] [DecidableEq Term] [DecidableEq Candidate]
variable {electorate : Finset Voter} {votes : Finset (Vote Voter Term Candidate)} {term : Term}

/-- The members of the electorate that have voted for the candidate in the term. -/
def supporters (electorate : Finset Voter) (votes : Finset (Vote Voter Term Candidate))
    (term : Term) (candidate : Candidate) : Finset Voter :=
  electorate.filter fun voter ↦ ⟨voter, term, candidate⟩ ∈ votes

/-- A majority of the electorate has voted for the candidate in the term. -/
def Elected (electorate : Finset Voter) (votes : Finset (Vote Voter Term Candidate)) (term : Term)
    (candidate : Candidate) : Prop :=
  electorate.card / 2 + 1 ≤ (supporters electorate votes term candidate).card

/-- An elected candidate stays elected when votes are added. -/
theorem Elected.mono {candidate : Candidate} {more : Finset (Vote Voter Term Candidate)}
    (helected : Elected electorate votes term candidate) (hmore : votes ⊆ more) :
    Elected electorate more term candidate := by
  have hsubset : supporters electorate votes term candidate ⊆
      supporters electorate more term candidate := by
    intro voter hvoter
    rw [supporters, Finset.mem_filter] at hvoter ⊢
    exact ⟨hvoter.1, hmore hvoter.2⟩
  exact helected.trans (Finset.card_le_card hsubset)

/-- Assumes: nobody votes twice in a term. At most one candidate is elected in a term. -/
theorem Elected.unique (honce : OneVotePerTerm votes) {first second : Candidate}
    (hfirst : Elected electorate votes term first)
    (hsecond : Elected electorate votes term second) : first = second := by
  have hcard : electorate.card < (supporters electorate votes term first).card +
      (supporters electorate votes term second).card := by
    rw [Elected] at hfirst hsecond
    omega
  obtain ⟨voter, hvoter⟩ := Finset.inter_nonempty_of_card_lt_card_add_card
    (Finset.filter_subset _ electorate) (Finset.filter_subset _ electorate) hcard
  obtain ⟨hvotedFirst, hvotedSecond⟩ := Finset.mem_inter.mp hvoter
  exact honce _ (Finset.mem_filter.mp hvotedFirst).2 _ (Finset.mem_filter.mp hvotedSecond).2 rfl rfl

/-- A vote may be added to a record when the voter has voted for nobody else in the term. -/
theorem OneVotePerTerm.insert (honce : OneVotePerTerm votes)
    {new : Vote Voter Term Candidate}
    (hnew : ∀ old ∈ votes, old.voter = new.voter → old.term = new.term →
      old.candidate = new.candidate) : OneVotePerTerm (Insert.insert new votes) := by
  intro first hfirst second hsecond hvoter hterm
  rcases Finset.mem_insert.mp hfirst with hfirst | hfirst
  · rcases Finset.mem_insert.mp hsecond with hsecond | hsecond
    · rw [hfirst, hsecond]
    · rw [hfirst] at hvoter hterm ⊢
      exact (hnew second hsecond hvoter.symm hterm.symm).symm
  · rcases Finset.mem_insert.mp hsecond with hsecond | hsecond
    · rw [hsecond] at hvoter hterm ⊢
      exact hnew first hfirst hvoter hterm
    · exact honce first hfirst second hsecond hvoter hterm

end OneOS.Foundation
