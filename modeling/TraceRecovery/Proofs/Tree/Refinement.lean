import TraceRecovery.Proofs.Tree.Runs

/-!
# Runs refine the recursion

A run that is never cancelled computes what the recursion over the nodes gives, in whatever order it
takes the nodes of a wave: it succeeds exactly if the recursion gives a value to every candidate at
every needed node, and then the tables have these values (`Tree.run_refines_recursion`). A run that
takes each wave as it is listed, which is what `Tree.run` does, is one of these.
-/

namespace TraceRecovery

namespace Tree

variable {t : Tree} {s : CandidateSpace} {e : TraceError}

/-- If a run fails without having been cancelled, the recursion fails as well. -/
theorem Raised.exists_value_eq_error {mayCancel : Prop} (h : t.Raised s mayCancel e)
    (hnever : ¬ mayCancel) :
    ∃ id, t.Needed id ∧ ∃ c ∈ s.candidates, t.value s id c = .error e := by
  cases h with
  | cancelled hcancel => exact absurd hcancel hnever
  | heuristic hid _ _ hc _ _ hvalue => exact ⟨_, hid, _, hc, hvalue⟩
  | aggregation hid _ _ hc _ _ hvalue => exact ⟨_, hid, _, hc, hvalue⟩

/-- Where the state of cancellation is fixed, nothing else changes during a run. -/
theorem run_passes_pure (cancelled : Bool) (ids : List NodeId) (b : Board) :
    (t.passes s (pure cancelled : StateM Unit Bool) ids b).run () =
      (Id.run (t.passes s (pure cancelled) ids b), ()) := by
  induction ids generalizing b with
  | nil => rfl
  | cons id ids ih =>
    have hlook : (pure cancelled : StateM Unit Bool).run () = (cancelled, ()) := rfl
    rw [run_passes_cons, hlook, passes, pure_bind]
    cases t.pass s cancelled id b with
    | error e => rfl
    | ok next => exact ih next

theorem run_runInTurns_pure (cancelled : Bool) (w : t.Turns) :
    ((t.runInTurns (pure cancelled : StateM Unit Bool) s w).run ()).1 =
      Id.run (t.runInTurns (pure cancelled) s w) := by
  rw [run_runInTurns, run_passes_pure, runInTurns, Id.run_bind]
  cases Id.run (t.passes s (pure cancelled) w.ids .empty) <;> rfl

/-- A run that is never cancelled succeeds exactly if the recursion gives a value to every candidate
at every needed node, and its outcome is what the recursion gives. -/
theorem run_refines_recursion (t : Tree) (s : CandidateSpace) (w : t.Turns) :
    ((∃ e, Id.run (t.runInTurns (pure false) s w) = .ok e) ↔
      ∀ id, t.Needed id → ∀ c ∈ s.candidates, ∃ v, t.value s id c = .ok v) ∧
    ∀ e, Id.run (t.runInTurns (pure false) s w) = .ok e → t.IsOutcome s e := by
  have hspec := runInTurns_spec (s := s) w (pure false : StateM Unit Bool) ()
  rw [run_runInTurns_pure] at hspec
  refine ⟨⟨?_, fun hvalues => ?_⟩, fun e he => hspec.of_eq_ok he⟩
  · rintro ⟨e, he⟩ id hid c hc
    have houtcome := hspec.of_eq_ok he
    obtain ⟨tb, htb⟩ := Option.isSome_iff_exists.mp ((houtcome.isComplete_iff id).mpr hid)
    exact ⟨tb.get c, houtcome.value_eq id tb htb c hc⟩
  · cases hrun : Id.run (t.runInTurns (pure false) s w) with
    | ok e => exact ⟨e, rfl⟩
    | error e =>
      have hnever : ¬ ∃ st : Unit, ((pure false : StateM Unit Bool).run st).1 = true := by
        rintro ⟨st, h⟩
        cases h
      obtain ⟨id, hid, c, hc, hvalue⟩ := (hspec.of_eq_error hrun).exists_value_eq_error hnever
      obtain ⟨v, hv⟩ := hvalues id hid c hc
      rw [hv] at hvalue
      cases hvalue

end Tree

end TraceRecovery
