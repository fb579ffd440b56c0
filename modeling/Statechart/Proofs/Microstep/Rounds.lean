import Statechart.Proofs.Microstep.Resolution

/-!
# Expansion in rounds

The seeds are expanded first, and after them, in each round, the regions that are
missing by then.  Whether the expansion of a node comes to an end is up to what
the histories have recorded, and not to what has been reached before.  A round
without missing regions changes nothing, so that expansions of different lengths
can be compared round by round.
-/

namespace Statechart

namespace Chart

variable {chart : Chart} {history : NodeMap (List NodeId)} {limit : Nat}

/-! ## Expansions that end -/

/-- The expansion of a node comes to an end. -/
def Ends (chart : Chart) (history : NodeMap (List NodeId)) (limit : Nat) (node : NodeId) : Prop :=
  ∃ reached after, chart.expandNode history limit reached node = some after

theorem not_ends_zero (node : NodeId) : ¬ chart.Ends history 0 node :=
  fun ⟨_, _, done⟩ => by cases done

/-- An expansion that comes to an end does so wherever it begins. -/
theorem Ends.exists_expandNode {node : NodeId} (ends : chart.Ends history limit node)
    (reached : Expansion) :
    ∃ after, chart.expandNode history limit reached node = some after := by
  induction limit generalizing node reached with
  | zero => exact absurd ends (not_ends_zero node)
  | succ limit ih =>
      obtain ⟨start, last, done⟩ := ends
      rw [expandNode_succ] at done ⊢
      exact exists_foldlM_expandNode (fun reached next leads =>
        ih (exists_expandNode_of_expandNodes done next leads) reached) _

/-- Nodes are expanded if the expansion of each one comes to an end. -/
theorem exists_foldlM_expandNode_iff {nodes : List NodeId} {reached : Expansion} :
    (∃ after, nodes.foldlM (chart.expandNode history limit) reached = some after) ↔
      ∀ node ∈ nodes, chart.Ends history limit node :=
  ⟨fun ⟨_, done⟩ => exists_expandNode_of_expandNodes done,
    fun ends => exists_foldlM_expandNode
      (fun reached node member => (ends node member).exists_expandNode reached) reached⟩

theorem ends_succ_iff {node : NodeId} :
    chart.Ends history (limit + 1) node ↔
      ∀ next ∈ chart.leadsTo history node, chart.Ends history limit next := by
  constructor
  · rintro ⟨reached, after, done⟩
    rw [expandNode_succ] at done
    exact exists_foldlM_expandNode_iff.1 ⟨after, done⟩
  · intro ends
    obtain ⟨after, done⟩ := exists_foldlM_expandNode_iff.2 ends
    exact ⟨{ leaves := ∅ }, after, (expandNode_succ limit _ node).trans done⟩

/-! ## Outcomes -/

/-- What the outcome of the expansion makes of a microstep. -/
theorem resolve_eq (before : NodeSet) (transitions : List TransitionId) :
    chart.resolve history before transitions =
      match chart.expand history (chart.residualOf before transitions)
        (chart.seedsOf before transitions) with
      | none => .error .endless
      | some reached =>
        match chart.violations reached.leaves with
        | [] => .ok (chart.resolutionOf before transitions reached)
        | violations => .error (.illegal violations) :=
  rfl

end Chart

/-- Transitions to be taken in a configuration, and what its histories have
recorded. -/
structure Proposal where
  history : NodeMap (List NodeId)
  before : NodeSet
  transitions : List TransitionId

namespace Proposal

variable {chart : Chart} {proposal : Proposal} {rounds : Nat} {reached after : Expansion}

def resolve (proposal : Proposal) (chart : Chart) : Except ResolutionFault Resolution :=
  chart.resolve proposal.history proposal.before proposal.transitions

/-- What is reached after the seeds and some rounds of filling, if all that comes
to an end. -/
def stage (proposal : Proposal) (chart : Chart) : Nat → Option Expansion
  | 0 => chart.expandNodes proposal.history
      { leaves := chart.residualOf proposal.before proposal.transitions }
      (chart.seedsOf proposal.before proposal.transitions)
  | rounds + 1 => do
    let reached ← proposal.stage chart rounds
    chart.expandNodes proposal.history reached (chart.missingRegions reached.leaves)

theorem stage_succ_eq_some_iff :
    proposal.stage chart (rounds + 1) = some after ↔
      ∃ reached, proposal.stage chart rounds = some reached ∧
        chart.expandNodes proposal.history reached (chart.missingRegions reached.leaves) =
          some after :=
  Option.bind_eq_some_iff

theorem exists_stage_of_le {fewer : Nat} (isStage : proposal.stage chart rounds = some reached)
    (isLess : fewer ≤ rounds) : ∃ earlier, proposal.stage chart fewer = some earlier := by
  induction rounds generalizing reached with
  | zero => exact ⟨reached, Nat.le_zero.1 isLess ▸ isStage⟩
  | succ rounds ih =>
      rcases Nat.le_succ_iff.1 isLess with isLess | rfl
      · obtain ⟨earlier, isEarlier, -⟩ := stage_succ_eq_some_iff.1 isStage
        exact ih isEarlier isLess
      · exact ⟨reached, isStage⟩

/-- After some rounds no region is missing. -/
structure Settles (proposal : Proposal) (chart : Chart) (rounds : Nat) (reached : Expansion) :
    Prop where
  isStage : proposal.stage chart rounds = some reached
  noneMissing : chart.missingRegions reached.leaves = []

namespace Settles

/-- Further rounds change nothing. -/
theorem of_le {more : Nat} (settles : proposal.Settles chart rounds reached)
    (isMore : rounds ≤ more) : proposal.Settles chart more reached := by
  induction more, isMore using Nat.le_induction with
  | base => exact settles
  | succ more _ ih =>
      refine ⟨stage_succ_eq_some_iff.2 ⟨reached, ih.isStage, ?_⟩, settles.noneMissing⟩
      rw [settles.noneMissing]
      rfl

theorem eq {other : Nat} (settles : proposal.Settles chart rounds reached)
    (others : proposal.Settles chart other after) : reached = after := by
  have first := (settles.of_le (Nat.le_max_left rounds other)).isStage
  have second := (others.of_le (Nat.le_max_right rounds other)).isStage
  exact Option.some.inj (first.symm.trans second)

end Settles

/-- To fill regions is to go through rounds until no region is missing. -/
theorem fillRegions_eq_some_iff {limit : Nat}
    (isStage : proposal.stage chart rounds = some reached) :
    chart.fillRegions proposal.history limit reached = some after ↔
      ∃ more < limit, proposal.Settles chart (rounds + more) after := by
  induction limit generalizing rounds reached with
  | zero =>
      constructor
      · intro done
        cases done
      · rintro ⟨more, isLess, -⟩
        exact absurd isLess (Nat.not_lt_zero more)
  | succ limit ih =>
      rw [Chart.fillRegions]
      split
      · next noneMissing =>
          have settles : proposal.Settles chart rounds reached := ⟨isStage, noneMissing⟩
          constructor
          · rintro done
            cases done
            exact ⟨0, Nat.zero_lt_succ limit, settles⟩
          · rintro ⟨more, -, others⟩
            exact congrArg some (settles.eq others)
      · next missing =>
          constructor
          · intro done
            obtain ⟨next, stepped, others⟩ := Option.bind_eq_some_iff.1 done
            obtain ⟨more, isLess, settles⟩ :=
              (ih (stage_succ_eq_some_iff.2 ⟨reached, isStage, stepped⟩)).1 others
            rw [Nat.add_right_comm] at settles
            exact ⟨more + 1, Nat.succ_lt_succ isLess, settles⟩
          · rintro ⟨more, isLess, settles⟩
            cases more with
            | zero =>
                obtain rfl := Option.some.inj (isStage.symm.trans settles.isStage)
                exact absurd settles.noneMissing missing
            | succ more =>
                obtain ⟨next, isNext⟩ := exists_stage_of_le settles.isStage
                  (Nat.add_le_add_left (Nat.le_add_left 1 more) rounds)
                obtain ⟨other, isOther, stepped⟩ := stage_succ_eq_some_iff.1 isNext
                obtain rfl := Option.some.inj (isStage.symm.trans isOther)
                refine Option.bind_eq_some_iff.2 ⟨next, stepped, (ih isNext).2 ⟨more, ?_, ?_⟩⟩
                · exact Nat.lt_of_succ_lt_succ isLess
                · rw [Nat.add_right_comm]
                  exact settles

/-- An expansion comes to an end if it settles in as many rounds as there are nodes. -/
theorem expand_eq_some_iff :
    chart.expand proposal.history (chart.residualOf proposal.before proposal.transitions)
        (chart.seedsOf proposal.before proposal.transitions) = some after ↔
      ∃ rounds ≤ chart.nodeCount, proposal.Settles chart rounds after := by
  constructor
  · intro expanded
    obtain ⟨reached, first, others⟩ := Option.bind_eq_some_iff.1 expanded
    have isStage : proposal.stage chart 0 = some reached := first
    obtain ⟨rounds, isLess, settles⟩ := (fillRegions_eq_some_iff isStage).1 others
    exact ⟨rounds, Nat.le_of_lt_succ isLess, Nat.zero_add rounds ▸ settles⟩
  · rintro ⟨rounds, isLess, settles⟩
    obtain ⟨reached, isStage⟩ := exists_stage_of_le settles.isStage (Nat.zero_le rounds)
    refine Option.bind_eq_some_iff.2 ⟨reached, isStage, (fillRegions_eq_some_iff isStage).2 ?_⟩
    exact ⟨rounds, Nat.lt_succ_of_le isLess, (Nat.zero_add rounds).symm ▸ settles⟩

/-! ## Outcomes of proposals -/

/-- The expansion does not come to an end. -/
def IsEndless (proposal : Proposal) (chart : Chart) : Prop :=
  proposal.resolve chart = .error .endless

/-- The next configuration would break rules. -/
def IsIllegal (proposal : Proposal) (chart : Chart) : Prop :=
  ∃ violations, proposal.resolve chart = .error (.illegal violations)

/-- The expansion settles in a legal configuration. -/
structure Succeeds (proposal : Proposal) (chart : Chart) (rounds : Nat) (reached : Expansion) :
    Prop extends proposal.Settles chart rounds reached where
  legal : chart.IsLegalConfiguration reached.leaves

theorem isEndless_iff :
    proposal.IsEndless chart ↔
      ¬ ∃ rounds ≤ chart.nodeCount, ∃ reached, proposal.Settles chart rounds reached := by
  have isEnd : proposal.IsEndless chart ↔
      chart.expand proposal.history (chart.residualOf proposal.before proposal.transitions)
        (chart.seedsOf proposal.before proposal.transitions) = none := by
    rw [IsEndless, resolve, Chart.resolve_eq]
    cases chart.expand proposal.history (chart.residualOf proposal.before proposal.transitions)
      (chart.seedsOf proposal.before proposal.transitions) with
    | none => simp
    | some reached =>
        dsimp only
        split <;> simp
  rw [isEnd, Option.eq_none_iff_forall_ne_some]
  simp only [ne_eq, expand_eq_some_iff]
  exact ⟨fun none ⟨rounds, isLess, reached, settles⟩ => none reached ⟨rounds, isLess, settles⟩,
    fun none reached ⟨rounds, isLess, settles⟩ => none ⟨rounds, isLess, reached, settles⟩⟩

section Tree

variable (tree : chart.IsTree)
include tree

theorem resolve_eq_ok_iff {resolution : Resolution} :
    proposal.resolve chart = .ok resolution ↔
      ∃ rounds ≤ chart.nodeCount, ∃ reached, proposal.Succeeds chart rounds reached ∧
        chart.resolutionOf proposal.before proposal.transitions reached = resolution := by
  rw [resolve, Chart.resolve_eq_ok_iff]
  simp only [expand_eq_some_iff, tree.violations_eq_nil_iff]
  constructor
  · rintro ⟨reached, ⟨rounds, isLess, settles⟩, legal, same⟩
    exact ⟨rounds, isLess, reached, ⟨settles, legal⟩, same⟩
  · rintro ⟨rounds, isLess, reached, ⟨settles, legal⟩, same⟩
    exact ⟨reached, ⟨rounds, isLess, settles⟩, legal, same⟩

theorem Succeeds.resolve_eq (succeeds : proposal.Succeeds chart rounds reached)
    (isLess : rounds ≤ chart.nodeCount) :
    proposal.resolve chart =
      .ok (chart.resolutionOf proposal.before proposal.transitions reached) :=
  (resolve_eq_ok_iff tree).2 ⟨rounds, isLess, reached, succeeds, rfl⟩

theorem isIllegal_iff :
    proposal.IsIllegal chart ↔ ∃ rounds ≤ chart.nodeCount, ∃ reached,
      proposal.Settles chart rounds reached ∧ ¬ chart.IsLegalConfiguration reached.leaves := by
  have breaks : proposal.IsIllegal chart ↔ ∃ reached,
      chart.expand proposal.history (chart.residualOf proposal.before proposal.transitions)
        (chart.seedsOf proposal.before proposal.transitions) = some reached ∧
      chart.violations reached.leaves ≠ [] := by
    rw [IsIllegal, resolve, Chart.resolve_eq]
    cases chart.expand proposal.history (chart.residualOf proposal.before proposal.transitions)
      (chart.seedsOf proposal.before proposal.transitions) with
    | none => simp
    | some reached =>
        dsimp only
        split
        · next noViolations => simp [noViolations]
        · next violations => simpa using violations
  rw [breaks]
  simp only [expand_eq_some_iff, ne_eq, tree.violations_eq_nil_iff]
  constructor
  · rintro ⟨reached, ⟨rounds, isLess, settles⟩, illegal⟩
    exact ⟨rounds, isLess, reached, settles, illegal⟩
  · rintro ⟨rounds, isLess, reached, settles, illegal⟩
    exact ⟨reached, ⟨rounds, isLess, settles⟩, illegal⟩

/-- What settles breaks rules unless it succeeds. -/
theorem isIllegal_iff_of_settles (isLess : rounds ≤ chart.nodeCount)
    (settles : proposal.Settles chart rounds reached) :
    proposal.IsIllegal chart ↔ ¬ ∃ last, proposal.Succeeds chart rounds last := by
  rw [isIllegal_iff tree]
  constructor
  · rintro ⟨other, -, final, others, illegal⟩ ⟨last, succeeds⟩
    exact illegal (others.eq succeeds.toSettles ▸ succeeds.legal)
  · intro fails
    exact ⟨rounds, isLess, reached, settles, fun legal => fails ⟨reached, settles, legal⟩⟩

end Tree

end Proposal

end Statechart
