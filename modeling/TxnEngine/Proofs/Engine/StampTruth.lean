import TxnEngine.Proofs.Engine.Draining
import TxnEngine.Proofs.Log.TornAppends
import TxnEngine.Workload.Fixture

/-!
# Stamps record the truth

Results:
* `stamps_record_truth`: whatever the parties of an engine do and however they interleave, stamps
  are true from then on, and every accepted submission is handled once.
-/

namespace TxnEngine

namespace Engine

open Clients

/-- Stamps record the truth. However submissions, workers, owners, renewals, the clock and a
shutdown interleave, and whatever the storage does: a settler is told a final status only if the
record is finished with it; every stamp is the final status of its writer's record from then on, and
stays; no worker finds a stamp that differs; and the submissions that were accepted are received in
that order and handled once each, also those that wait when the resolver is shut down. -/
theorem stamps_record_truth {σ : Type} (h : Handle) (bytes : Bytes) (f : Faults) (config : Config)
    (c : Collaborators σ) (moves : List (Move Op)) :
    let e : Engine σ := .new (Log.openedFaulty h bytes f) config { c with stamps := .empty }
    let state := stateAfter Op.program e moves
    (∀ a ∈ history Op.program e moves, ∀ id status, a.op = .manage (.settle id) →
        a.reply = .managed (.settled (.ok (some status))) →
        ∀ n, a.ended ≤ n → n ≤ moves.length → Manager.Ends id status (state n).manager) ∧
      (∀ i n loc id status, i ≤ n → n ≤ moves.length → Stamped loc id status (state i) →
        Stamped loc id status (state n) ∧ Manager.Ends id status (state n).manager) ∧
      (∀ a ∈ history Op.program e moves, ∀ job resolution,
        a.reply.handled? = some (job, resolution) →
        Handles job (state a.begun) resolution (state a.ended) ∧
          ∀ detail, resolution ≠ .failed (.corruption detail)) ∧
      (∀ n ≤ moves.length,
        accepted e moves n = received e moves n ++ (state n).resolver.queue ∧
          ((handled e moves n).map Prod.fst).Subperm (received e moves n) ∧
          (AtRest e moves n → ((handled e moves n).map Prod.fst).Perm (received e moves n))) ∧
      (∀ i n, i ≤ n → n ≤ moves.length → (state i).resolver.isRunning = false →
        accepted e moves n = accepted e moves i) ∧
      ∃ more : List (Move Op), (∀ m ∈ more, WindsDown m) ∧
        (∀ client, (after Op.program e (moves ++ more) (moves ++ more).length).running client =
          none) ∧
        ((handled e (moves ++ more) (moves ++ more).length).map Prod.fst).Perm
          (accepted e moves moves.length) := by
  intro e state
  have he : e.Truthful := truthful_new (Log.valid_openedFaulty h bytes f) config c
  have hsound {n : Nat} (hn : n ≤ moves.length) := sound_after contract_program he hn
  have hleads {i n : Nat} (hin : i ≤ n) (hn : n ≤ moves.length) : Continues (state i) (state n) :=
    leads_stateAfter contract_program he hin hn
  refine ⟨?settled, ?stamped, ?handled, ?books, ?closed, exists_drained he rfl⟩
  case settled =>
    intro a ha id status hop hreply n hended hn
    obtain ⟨-, -, -, hanswers⟩ := (hsound (Nat.le_refl _)).finished a ha
    obtain ⟨answer, hanswer, hsettles⟩ := hanswers.managed _ hop
    rw [hreply] at hanswer
    cases hanswer
    exact (hsettles.final status rfl).later (hleads hended hn).records
  case stamped =>
    intro i n loc id status hin hn hstamped
    have hstays := (hleads hin hn).stamps loc id status hstamped
    exact ⟨hstays, (hsound hn).holds.stamps loc id status hstays⟩
  case handled =>
    intro a ha job resolution hreply
    obtain ⟨-, -, -, hanswers⟩ := (hsound (Nat.le_refl _)).finished a ha
    have hhandles := hanswers.handled job resolution hreply
    refine ⟨hhandles, fun detail hcorrupt => ?_⟩
    rcases hhandles.failed _ hcorrupt with ⟨hcause, -⟩ | ⟨fault, hcause⟩ <;> cases hcause
  case books =>
    exact fun n hn => ⟨accepted_eq rfl hn, handled_subperm he hn, handled_perm he hn⟩
  case closed =>
    exact fun i n hin hn hclosed => (accepted_of_closed hin hn hclosed).1

/-! An owner sleeps for ten minutes while a version of its transaction is submitted twice. A worker
has read the clock and the record when the owner's late commit is refused, and goes on to stamp the
version. The second submission still waits when the resolver is shut down. -/

/-- An engine over an empty log in memory. -/
def lateOwner : Engine ScriptedSubstrate :=
  .new (Log.openedFaulty .shared [] .none) .default
    { Workload.ownCollaborators 0 Directory.defaultLabel with stamps := .empty }

def lateJob : ResolveJob :=
  ⟨⟨⟨1⟩, []⟩, ⟨1⟩⟩

/-- Some turns of a client. -/
def turns (client n : Nat) : List (Move Op) :=
  List.replicate n (.turn client)

def lateMoves : List (Move Op) :=
  List.flatten
    [[.start 0 (.manage .begin)], turns 0 6,
      [.start 1 (.submit lateJob), .turn 1, .start 1 (.submit lateJob), .turn 1],
      [.start 1 (.manage (.setClock 600000))],
      [.start 2 .resolve], turns 2 5,
      [.start 0 (.manage (.commit (.new ⟨1⟩ false)))], turns 0 7,
      [.start 1 .close], turns 2 4]

/-- The stamp is that of the record in the log, and both submissions can be handled. -/
theorem stamps_record_truth_lateMoves :
    let state := stateAfter Op.program lateOwner lateMoves
    (state 27).resolver.isRunning = false ∧ (state 27).resolver.queue = [lateJob] ∧
      Stamped lateJob.location lateJob.txnId .rolledBack (state 30) ∧
      Manager.Ends lateJob.txnId .rolledBack (state 31).manager ∧
      ∃ more : List (Move Op), (∀ m ∈ more, WindsDown m) ∧
        ((handled lateOwner (lateMoves ++ more) (lateMoves ++ more).length).map Prod.fst).Perm
          [lateJob, lateJob] := by
  intro state
  have hclosed : (state 27).resolver.isRunning = false ∧ (state 27).resolver.queue = [lateJob] := by
    simp only [state, lateOwner, Log.openedFaulty_nil]
    decide +kernel
  have hstamped : Stamped lateJob.location lateJob.txnId .rolledBack (state 30) := by
    simp only [state, lateOwner, Log.openedFaulty_nil, Stamped]
    decide +kernel
  have haccepted : accepted lateOwner lateMoves lateMoves.length = [lateJob, lateJob] := by
    simp only [lateOwner, Log.openedFaulty_nil]
    decide +kernel
  obtain ⟨-, htrue, -, -, -, more, hmore, -, hhandled⟩ := stamps_record_truth .shared [] .none
    .default (Workload.ownCollaborators 0 Directory.defaultLabel) lateMoves
  refine ⟨hclosed.1, hclosed.2, hstamped, ?_, more, hmore, ?_⟩
  · exact (htrue 30 31 _ _ _ (by decide) (by decide) hstamped).2
  · rwa [← haccepted]

end Engine

end TxnEngine
