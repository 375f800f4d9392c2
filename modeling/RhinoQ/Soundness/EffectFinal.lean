import RhinoQ.Proofs.Runtime

/-! # Confirmed effects

Every resolution of an effect reads the record and writes the whole copy back, comparing nothing, so a
confirmation that lands between a read and its write is lost.
-/

namespace RhinoQ.Model.Runtime

open Ports Effect

variable {codec : Recovery.Codec}

/-- The step writes a not-happened or unknown result back over another state than the one it read,
or over a confirmation it did read. -/
def overwrites (p : State) : Event → Bool
  | .advance t _ =>
    match p.thread t with
    | .effect call (.saving _ (.notHappened _) record _) =>
      record.state == .confirmed || (call.lookup p.shared.effects).map (·.state) != some record.state
    | .effect call (.resolving _ (.failed _) record) =>
      record.state == .pending && (call.lookup p.shared.effects).map (·.state) != some .pending
    | _ => false
  | _ => false

theorem confirmed_step (wf : WellFormed p)
    (confirmed : stateAt key p = some .confirmed) (careful : overwrites p e = false)
    (step : step codec p e = some q) : stateAt key q = some .confirmed := by
  obtain ⟨record, found, state⟩ := Option.map_eq_some_iff.mp confirmed
  cases step_cases step with
  | @advance t s choice thread moved =>
    have change : LedgerChange p.shared choice (p.thread t) key (s.effects.effects.lookup key) := moved.ledger (wf.copies t)
    generalize current : p.thread t = running at change
    cases change with
    | kept same => exact state ▸ stateAt_of_lookup (p := p.move t s thread) (same.trans found)
    | opened _ _ _ _ absent =>
      rw [absent] at found
      cases found
    | downgraded expired old _ present pending =>
      obtain rfl := Option.some.inj (present.symm.trans found)
      rw [pending] at state
      cases state
    | written old new writes present stored =>
      obtain rfl := Option.some.inj (present.symm.trans found)
      generalize written : new.state = result at writes
      cases writes with
      | confirmed => exact written ▸ stateAt_of_lookup (p := p.move t s thread) stored
      | signalled => exact written ▸ stateAt_of_lookup (p := p.move t s thread) stored
      | @notHappened flight text call copy updated own =>
        subst own
        simp only [overwrites, current, Bool.or_eq_false_iff, beq_eq_false_iff_ne, bne_eq_false_iff_eq] at careful
        obtain ⟨unconfirmed, unchanged⟩ := careful
        rw [EffectCall.lookup_eq, present] at unchanged
        exact absurd ((Option.some.inj unchanged).symm.trans state) unconfirmed
      | @unknown flight text call copy own pending =>
        subst own
        simp only [overwrites, current, pending, beq_self_eq_true, Bool.true_and, bne_eq_false_iff_eq] at careful
        rw [EffectCall.lookup_eq, present] at careful
        have waiting : old.state = .pending := Option.some.inj careful
        rw [waiting] at state
        cases state
  | job | start | crash => exact confirmed

/-- In every run whose not-happened and unknown results are written over the state they read, and
never over a confirmation, a confirmed effect is confirmed ever after. -/
theorem confirmed_final_unless_overwritten {p q : State} {events : List Event} {key : String}
    (reached : (machine codec).Reaches Machine.anyStep p) (confirmed : stateAt key p = some .confirmed)
    (path : (machine codec).Path (fun p e => overwrites p e = false) p events q) : stateAt key q = some .confirmed := by
  have final := path.invariant (fun p => WellFormed p ∧ stateAt key p = some .confirmed)
    (fun p e q careful step inv => ⟨inv.1.step step, confirmed_step inv.1 inv.2 careful step⟩)
    ⟨wellFormed_of_reaches reached, confirmed⟩
  exact final.2

/-- The callback returns a reference and the effect is confirmed. -/
def confirmCharge : List Event :=
  runCharge ++ [.advance 0 { returned := .reference "ch_1" }, .advance 0 {}, .advance 0 { now := 4 }, .advance 0 {},
    .advance 0 {}]

/-- The lease expires and a sweep downgrades what the dead execution left open. -/
def sweepLate : List Event :=
  [.start 1 (.sweep {}), .advance 1 { now := 100, order := ["job_000001"] }, .advance 1 {}]

theorem confirmed_charge_survives_sweep : ∃ p q, (machine .plain).run (machine .plain).start confirmCharge = some p ∧
      stateAt chargeKey p = some .confirmed ∧ (machine .plain).runChecked (fun p e => !overwrites p e) p sweepLate = some q ∧
      stateAt chargeKey q = some .confirmed := by
  obtain ⟨p, run, confirmed, q, swept, _⟩ : ∃ p, (machine .plain).run (machine .plain).start confirmCharge = some p ∧
      stateAt chargeKey p = some .confirmed ∧
      ∃ q, (machine .plain).runChecked (fun p e => !overwrites p e) p sweepLate = some q ∧ True := by
    decide
  refine ⟨p, q, run, confirmed, swept, ?_⟩
  exact confirmed_final_unless_overwritten ⟨confirmCharge, Machine.path_of_run run⟩ confirmed
    (Machine.path_of_runChecked (fun _ _ passed => Bool.not_eq_true' _ ▸ passed) swept)

/-- The callback times out, the worker reads the pending record, and the provider's signal confirms
the effect before the worker writes. -/
def signalBetween : List Event :=
  runCharge ++ [.advance 0 { returned := .failed "timeout" }, .advance 0 {},
    .start 1 (.signal { jobID := "job_000001", name := "charge", key := "k", reference := "ch_1" }),
    .advance 1 {}, .advance 1 {}]

/-- The worker's write of the uncertain copy then replaces the confirmation. -/
theorem confirmation_overwritten : ∃ p q, (machine .plain).run (machine .plain).start signalBetween = some p ∧
      (machine .plain).run p [.advance 0 {}] = some q ∧
      stateAt chargeKey p = some .confirmed ∧ stateAt chargeKey q = some .uncertain := by
  simp only [exists_and_left]
  decide

end RhinoQ.Model.Runtime
