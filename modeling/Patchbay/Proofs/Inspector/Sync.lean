import Patchbay.Proofs.Graph.OutputChange
import Patchbay.Proofs.Inspector.Freshness

/-!
# What an inspector answers

An inspector that follows the patch answers whether its view was replaced. The view is compared with
the one made anew as equality of values has it, for which what is no number differs from itself. So
the answer is that of a changed view, except where a view shows such a value: there it is yes
whenever a notification concerns the inspector (`Session.sync_reply_iff`).
-/

namespace Patchbay

/-- What an inspector answers when it follows a patch, whatever it showed before. -/
theorem Inspector.follow_fst_iff (i : Inspector) (g : Graph) (pending : List Event) :
    (i.follow g pending).1 = true ↔
      (i.follow g pending).2.view.map NodeView.canonical ≠ i.view.map NodeView.canonical ∨
        pending.any concerns = true ∧
          (i.follow g pending).2.view.any NodeView.showsNaN = true := by
  unfold follow
  cases hconcerns : pending.any concerns with
  | false => simp
  | true =>
    rw [if_pos rfl]
    dsimp only
    cases hsame : sameView (NodeView.ofSelection g) i.view with
    | true =>
      -- the view that is kept shows no number exactly where the one made anew does
      obtain ⟨hcanonical, hnumbers⟩ := sameView_iff.mp hsame
      rw [NodeView.showsNaN_of_canonical hcanonical] at hnumbers
      simp [hnumbers]
    | false =>
      have hnot := mt sameView_iff.mpr (Bool.eq_false_iff.mp hsame)
      rw [not_and_or, Bool.not_eq_false] at hnot
      simpa using hnot

namespace Session

/--
An open inspector that follows the patch answers that its view was replaced exactly if the view is
another one than before, or if a notification concerns the inspector and the view shows a value that
is no number.
-/
theorem sync_reply_iff (s : Session) (index : Nat) (i : Inspector)
    (hopen : s.inspector? index = some i) :
    ∃ (j : Inspector) (changed : Bool),
      (s.perform (.sync index)).session.inspector? index = some j ∧
      (s.perform (.sync index)).reply = .ok (.changed changed) ∧
      (changed = true ↔
        j.view.map NodeView.canonical ≠ i.view.map NodeView.canonical ∨
          (s.bus.pending i.subscriber).any Inspector.concerns = true ∧
            j.view.any NodeView.showsNaN = true) := by
  have hreply : (s.perform (.sync index)).reply =
      .ok (.changed (i.follow s.graph (s.bus.pending i.subscriber)).1) := by
    simp only [perform, syncInspector, hopen]
    rfl
  exact ⟨_, _, inspector?_syncInspector hopen, hreply, i.follow_fst_iff s.graph _⟩

/-- A source that is not selected is renamed, and the view changes with it. -/
theorem sync_reply_iff_renamed_source :
    let echoer := Node.ofType NodeKind.echoer.nodeType (.ofNat 1)
    let battery := Node.ofType NodeKind.battery.nodeType (.ofNat 2)
    let s := (ofGraph (.blank {} (.ofSeed 7))).run
      [.edit (.add echoer), .edit (.add battery), .edit (.connect battery.id echoer.id 0),
        .edit (.select echoer.id), .attach, .edit (.rename battery.id "Mains")]
    (s.inspector? 0).isSome ∧ (s.perform (.sync 0)).reply = .ok (.changed true) := by
  intro echoer battery s
  have hopen : (s.inspector? 0).isSome := by decide +kernel
  have hother : ((s.perform (.sync 0)).session.inspector? 0).map (·.view.map NodeView.canonical) ≠
      (s.inspector? 0).map (·.view.map NodeView.canonical) := by decide +kernel
  refine ⟨hopen, ?_⟩
  -- from here on the session is not to be evaluated
  clear_value s
  obtain ⟨i, hi⟩ := Option.isSome_iff_exists.mp hopen
  obtain ⟨j, changed, hj, hreply, hiff⟩ := sync_reply_iff s 0 i hi
  rw [hj, hi] at hother
  have hchanged : changed = true := hiff.mpr (.inl fun hsame => hother (congrArg some hsame))
  rw [hreply, hchanged]

/--
A memory whose input is no number is shown, and a node that it does not read from is renamed. The
answer is that the view was replaced, and it is the same view.
-/
theorem unrelated_rename_reported :
    let battery := Node.ofType NodeKind.battery.nodeType (.ofNat 2)
    let s := (ofGraph (.blank {} (.ofSeed 7))).run
      [.edit (.add Graph.stuckMemory), .edit (.add battery), .edit (.select Graph.stuckMemory.id),
        .attach, .edit (.rename battery.id "Mains")]
    let p := s.perform (.sync 0)
    (s.inspector? 0).isSome ∧
      (p.session.inspector? 0).map (·.view.map NodeView.canonical) =
        (s.inspector? 0).map (·.view.map NodeView.canonical) ∧
      p.reply = .ok (.changed true) := by
  intro battery s p
  have hanswer : (s.syncInspector 0).1 = true := by decide +kernel
  refine ⟨by decide +kernel, by decide +kernel, ?_⟩
  change Except.ok (Reply.changed (s.syncInspector 0).1) = _
  rw [hanswer]

end Session

end Patchbay
