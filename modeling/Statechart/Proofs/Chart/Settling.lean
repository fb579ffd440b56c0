import Statechart.Proofs.Chart.Executable

/-!
# Linking once is enough

Linking finds the targets of a transition from what no linking changes: the nodes, the ids
and what the transition declares.  So a step of linking that has succeeded succeeds again at
any later time, and changes nothing then.
-/

namespace Statechart

namespace Chart

variable {chart after : Chart}

/-! ## Steps that settle -/

theorem linkTargets_eq_self {source : NodeId} {id : TransitionId} {next : String}
    (legal : chart.areLegalTargets (chart.transition id).targets = true) :
    chart.linkTargets source id next (chart.transition id).targets = .ok chart := by
  rw [linkTargets, if_pos legal, modifyTransition_eq_self rfl]

/-- A step of linking that succeeds links, and done again later it changes nothing. -/
def Settles (step : Chart → Except Rejection Chart) : Prop :=
  ∀ chart after, step chart = .ok after →
    Links chart after ∧ ∀ later, Links after later → step later = .ok later

namespace Settles

theorem bind {first second : Chart → Except Rejection Chart} (firstSettles : Settles first)
    (secondSettles : Settles second) : Settles (fun chart => first chart >>= second) := by
  intro chart after done
  obtain ⟨middle, isMiddle, isAfter⟩ := exists_of_bind_eq_ok done
  obtain ⟨links, again⟩ := firstSettles chart middle isMiddle
  obtain ⟨further, againSecond⟩ := secondSettles middle after isAfter
  refine ⟨links.trans further, fun later linksLater => ?_⟩
  simp only [again later (further.trans linksLater)]
  exact againSecond later linksLater

theorem foldlM {Element : Type} {step : Chart → Element → Except Rejection Chart}
    (settles : ∀ element, Settles (fun chart => step chart element)) (elements : List Element) :
    Settles (fun chart => elements.foldlM step chart) := by
  induction elements with
  | nil =>
      intro chart after done
      cases done
      exact ⟨.refl chart, fun later _ => rfl⟩
  | cons element rest ih =>
      simp only [List.foldlM_cons]
      exact (settles element).bind ih

/-- A step may depend on what it reads off the chart, if no linking changes that. -/
theorem reading {Content : Type} (content : Chart → Content)
    (step : Content → Chart → Except Rejection Chart)
    (content_eq : ∀ {before after}, Links before after → content after = content before)
    (settles : ∀ known, Settles (step known)) :
    Settles (fun chart => step (content chart) chart) := by
  intro chart after done
  obtain ⟨links, again⟩ := settles (content chart) chart after done
  refine ⟨links, fun later linksLater => ?_⟩
  simp only [content_eq (links.trans linksLater)]
  exact again later linksLater

end Settles

theorem settles_resolveRootInitial : Settles resolveRootInitial := by
  intro chart after done
  obtain ⟨links, id, isInitial, linked⟩ := isLinkedTo_resolveRootInitial done
  refine ⟨links, fun later further => ?_⟩
  obtain ⟨found, notEmpty, legal⟩ := linked.links further
  rw [← further.sameTree.areLegalTargets_eq] at legal
  rw [root, ← further.node_eq] at isInitial
  rw [IsLinked, findNext] at found
  simp only [resolveRootInitial, root, isInitial, found]
  cases targets : (later.transition id).targets with
  | nil => exact absurd targets notEmpty
  | cons target rest => exact targets ▸ linkTargets_eq_self legal

theorem settles_resolveInitial (state : NodeId) (id : TransitionId) :
    Settles (fun chart => chart.resolveInitial state id) := by
  intro chart after done
  obtain ⟨links, linked⟩ := isLinkedTo_resolveInitial done
  refine ⟨links, fun later further => ?_⟩
  obtain ⟨found, fit⟩ := linked.links further
  rw [← further.areInitialTargets_eq] at fit
  obtain ⟨notEmpty, below, legal⟩ := fit
  rw [IsLinked, findNext] at found
  simp only [resolveInitial, found]
  cases targets : (later.transition id).targets with
  | nil => exact absurd targets notEmpty
  | cons target rest =>
      simp only [← targets]
      rw [if_pos (List.all_eq_true.2 below)]
      exact linkTargets_eq_self legal

theorem settles_resolveHistory {history : NodeId} {kind : HistoryKind}
    {default : Option TransitionId} (isKind : (chart.node history).kind = .history kind default)
    (done : chart.resolveHistory history kind default = .ok after) :
    Links chart after ∧
      ∀ later, Links after later → later.resolveHistory history kind default = .ok later := by
  obtain ⟨links, id, rfl, linked⟩ := isLinkedTo_resolveHistory isKind done
  refine ⟨links, fun later further => ?_⟩
  obtain ⟨found, fit⟩ := linked.links further
  rw [← further.areDefaultTargets_eq] at fit
  obtain ⟨notEmpty, suits, legal⟩ := fit
  rw [← (links.trans further).node_eq] at isKind
  rw [IsLinked, findNext] at found
  simp only [resolveHistory, found]
  cases targets : (later.transition id).targets with
  | nil => exact absurd targets notEmpty
  | cons target rest =>
      simp only [← targets]
      rw [if_pos (List.all_eq_true.2 fun target member => suits target member kind _ isKind)]
      exact linkTargets_eq_self legal

theorem settles_resolveOutgoing (node : NodeId) (id : TransitionId) :
    Settles (fun chart => resolveOutgoing node chart id) := by
  intro chart after done
  simp only [resolveOutgoing] at done
  split at done
  · next noNext =>
      cases done
      refine ⟨.refl chart, fun later links => ?_⟩
      simp only [resolveOutgoing, links.next_eq, noNext]
  · next next isNext =>
      split at done
      · cases done
      · next targets found =>
          rw [← Option.getD_some (a := next) (b := ""), ← isNext] at found
          obtain ⟨links, linked⟩ : Links chart after ∧
              after.IsLinkedTo id (fun targets => chart.areLegalTargets targets = true) :=
            isLinkedTo_linkTargets found (fun legal => legal) done
          refine ⟨links, fun later further => ?_⟩
          obtain ⟨found, legal⟩ := linked.links further
          rw [← (links.trans further).sameTree.areLegalTargets_eq] at legal
          rw [← (links.trans further).next_eq] at isNext
          rw [IsLinked, findNext, isNext, Option.getD_some] at found
          simp only [resolveOutgoing, isNext, found]
          exact linkTargets_eq_self legal

theorem settles_checkContent (node : NodeId) : Settles (fun chart => chart.checkContent node) := by
  intro chart after done
  simp only [checkContent, idOf] at done
  split at done
  · cases done
  · next noDefect =>
      obtain ⟨links, again⟩ := Settles.foldlM (settles_resolveOutgoing node)
        (chart.node node).transitions chart after done
      refine ⟨links, fun later further => ?_⟩
      simp only [checkContent, idOf, (links.trans further).node_eq, noDefect]
      exact again later further

theorem settles_checkNode (id : NodeId) : Settles (fun chart => chart.checkNode id) := by
  intro chart after done
  simp only [checkNode] at done
  split at done
  · next initial isFinal isKind =>
      split at done
      · cases done
      · next kept =>
          cases initial with
          | none =>
              obtain ⟨links, again⟩ := settles_checkContent id chart after done
              refine ⟨links, fun later further => ?_⟩
              simp only [checkNode, (links.trans further).node_eq, isKind]
              rw [if_neg kept]
              exact again later further
          | some transition =>
              obtain ⟨links, again⟩ :=
                (settles_resolveInitial id transition).bind (settles_checkContent id) chart after
                  done
              refine ⟨links, fun later further => ?_⟩
              simp only [checkNode, (links.trans further).node_eq, isKind]
              rw [if_neg kept]
              exact again later further
  · next isKind =>
      split at done
      · cases done
      · next regular =>
          obtain ⟨links, again⟩ := settles_checkContent id chart after done
          refine ⟨links, fun later further => ?_⟩
          simp only [checkNode, (links.trans further).node_eq, isKind, regular]
          exact again later further
  · next kind default isKind =>
      obtain ⟨links, again⟩ := settles_resolveHistory isKind done
      refine ⟨links, fun later further => ?_⟩
      simp only [checkNode, (links.trans further).node_eq, isKind]
      exact again later further
  · next initial isKind =>
      obtain ⟨links, again⟩ := settles_checkContent id chart after done
      refine ⟨links, fun later further => ?_⟩
      simp only [checkNode, (links.trans further).node_eq, isKind]
      exact again later further

/-- A chart that has been linked is linked again without any change. -/
theorem settles_link : Settles (fun chart => chart.resolveRootInitial >>= fun rooted =>
    (rooted.nodeIds.drop 1).foldlM checkNode rooted) := by
  have settles : Settles (fun chart => (chart.nodeIds.drop 1).foldlM checkNode chart) :=
    .reading nodeIds (fun ids chart => (ids.drop 1).foldlM checkNode chart)
      (fun links => congrArg List.range links.sameTree.nodeCount_eq)
      fun ids => .foldlM settles_checkNode (ids.drop 1)
  exact settles_resolveRootInitial.bind settles

end Chart

end Statechart
