import TraceRecovery.Proofs.Tree.Runs
import TraceRecovery.Proofs.Tree.Tokens

/-!
# Cancelled runs

A run that finds itself cancelled at its first look stops at the first node of its schedule, the one
with the lowest number in the first wave, before anything has been asked of a heuristic
(`Tree.run_runWith_of_cancelled`). A run under a token looks at the copy that it has started itself.
That copy is cancelled from the first look on if `cancel` was called in the token's family, and also
if the token's timeout is zero, as then the deadline is the very time of the start; nothing that
others do with tokens meanwhile can take this back (`Tree.runAmong_of_cancelled`). The deadline
of an earlier start does not matter, since the run fixes a new one.
-/

namespace TraceRecovery

namespace Tree

variable {t : Tree} {s : CandidateSpace}

/-! ## The first node -/

/-- A schedule begins with the lowest node of its first wave. -/
theorem exists_first_node (t : Tree) : ∃ first rest id ids n, t.waves = first :: rest ∧
    t.listedTurns.ids = id :: ids ∧ id ∈ first ∧ (∀ j ∈ first, id ≤ j) ∧
    t.nodes[id]? = some n := by
  cases hwaves : t.waves with
  | nil =>
    have hlast := t.getLast?_waves
    rw [hwaves] at hlast
    cases hlast
  | cons first rest =>
    have hfirst : first ∈ t.waves := hwaves ▸ List.mem_cons_self
    cases first with
    | nil => exact absurd rfl (t.isScheduled.nonempty _ hfirst)
    | cons id others =>
      have hids : t.listedTurns.ids = id :: (others ++ rest.flatten) := by
        show t.waves.flatten = _
        rw [hwaves, List.flatten_cons, List.cons_append]
      have hneeded : t.Needed id := t.listedTurns.mem_iff.mp (hids ▸ List.mem_cons_self)
      obtain ⟨n, hn⟩ := hneeded.exists_node
      refine ⟨_, rest, id, _, n, rfl, hids, List.mem_cons_self, fun j hj => ?_, hn⟩
      rcases List.mem_cons.mp hj with rfl | hj
      · exact Nat.le_refl j
      · exact Nat.le_of_lt ((List.pairwise_cons.mp (t.isScheduled.ascending _ hfirst)).1 j hj)

/-- The outcome of a run that has been cancelled before the lowest node of the first wave. -/
def StopsAtFirst (t : Tree) (outcome : Except TraceError Evaluation) : Prop :=
  ∃ first rest id n, t.waves = first :: rest ∧ id ∈ first ∧ (∀ j ∈ first, id ≤ j) ∧
    t.nodes[id]? = some n ∧ outcome = .error (.cancelled n.label)

theorem run_runWith_of_cancelled {σ : Type} {isCancelled : StateM σ Bool} {st : σ}
    (h : (isCancelled.run st).1 = true) :
    t.StopsAtFirst ((t.runWith isCancelled s).run st).1 := by
  obtain ⟨first, rest, id, ids, n, hwaves, hids, hid, hlowest, hn⟩ := t.exists_first_node
  refine ⟨first, rest, id, n, hwaves, hid, hlowest, hn, ?_⟩
  have hpass : t.pass s true id .empty = .error (.cancelled n.label) := by
    rw [pass, node_eq_ok hn]
    rfl
  rw [runWith, run_runInTurns, hids, run_passes_cons, h, hpass]

end Tree

/-! ## Runs under tokens -/

/-- The tokens that a run looks at while others go on using them, and how often it has looked. -/
structure Shared where
  tokens : Tokens
  looks : Nat

/-- A look at the tokens. Before each look others take some steps. -/
def Shared.look {α : Type} (others : Nat → List TokenStep) (view : Tokens → α) :
    StateM Shared α := fun v =>
  let tokens := v.tokens.after (others v.looks)
  (view tokens, ⟨tokens, v.looks + 1⟩)

namespace Tree

variable {t : Tree} {s : CandidateSpace}

/-- Runs a tree under a token while others go on using tokens. -/
def runAmong (others : Nat → List TokenStep) (w : Tokens) (token : Token) (t : Tree)
    (s : CandidateSpace) : Except TraceError Evaluation :=
  ((t.runUnder (Shared.look others Tokens.now) (Shared.look others Tokens.families) token s).run
    ⟨w, 0⟩).1

theorem runAmong_of_cancelled {others : Nat → List TokenStep} {w : Tokens} {token : Token}
    (h : token.family ∈ w.families.cancelled ∨ token.timeout = some 0) :
    t.StopsAtFirst (t.runAmong others w token s) := by
  -- The tokens at the start, and at the first look at the families and then at the clock.
  let w₀ := w.after (others 0)
  let w₁ := w₀.after (others 1)
  let w₂ := w₁.after (others 2)
  have hstarted : w₀.families.isCancelled w₀.now (token.start w₀.now) = true := by
    rw [Families.isCancelled, Bool.or_eq_true, List.contains_iff_mem]
    rcases h with h | h
    · exact .inl ((Tokens.later_after w (others 0)).cancelled h)
    · right
      simp [Token.start, h]
  have hlook : w₁.families.isCancelled w₂.now (token.start w₀.now) = true :=
    (Tokens.later_after w₀ (others 1)).isCancelled_families
      (Nat.le_trans (Tokens.later_after w₀ (others 1)).now_le
        (Tokens.later_after w₁ (others 2)).now_le) hstarted
  let isCancelled : StateM Shared Bool := do
    return (← Shared.look others Tokens.families).isCancelled (← Shared.look others Tokens.now)
      (token.start w₀.now)
  have hfirst : (isCancelled.run ⟨w₀, 1⟩).1 = true := hlook
  exact run_runWith_of_cancelled hfirst

end Tree

/-! ## Tokens after any steps -/

/-- What can be said of the token with a number from its origin and the history of all tokens. -/
structure Token.Follows (token : Token) (id : Nat) (o : Origin) (h : History) (w : Tokens) :
    Prop where
  /-- A token is cancelled exactly if `cancel` was called on some token of its family or the
  deadline that its latest start fixed has been reached. -/
  isCancelled_iff : w.isCancelled id = true ↔
    h.FamilyCancelled o.family ∨ ∃ d, Making.Deadline o.makings d ∧ d ≤ w.now
  /-- A timeout alone never cancels a token. -/
  isCancelled_iff_of_not_started : (∀ time, .start time ∉ o.makings) →
    (w.isCancelled id = true ↔ h.FamilyCancelled o.family)
  /-- Once cancelled a token stays so, whatever is done. -/
  final : w.isCancelled id = true → ∀ more, (w.after more).isCancelled id = true
  /-- Calling `cancel` makes no difference to other families. -/
  isCancelled_cancel_iff : ∀ id' o', h.origins[id']? = some o' →
    ((w.next (.cancel id')).isCancelled id = true ↔
      o'.family = o.family ∨ w.isCancelled id = true)
  /-- Everything else makes no difference at all until time passes. -/
  isCancelled_next : ∀ step, (∀ id', step ≠ .cancel id') →
    (∀ milliseconds, step ≠ .wait milliseconds) →
      (w.next step).isCancelled id = w.isCancelled id
  /-- A token that is started counts from then on, so it is cancelled at once only by its family or
  a timeout of zero. -/
  isCancelled_start_iff : (w.next (.start id)).isCancelled w.made.length = true ↔
    h.FamilyCancelled o.family ∨ Making.LatestTimeout o.makings 0
  /-- In these two cases a run under the token, of any tree over any candidates, stops at the lowest
  node of the first wave, whatever others do with tokens meanwhile. -/
  stopsAtFirst : h.FamilyCancelled o.family ∨ Making.LatestTimeout o.makings 0 →
    ∀ (t : Tree) (s : CandidateSpace) (others : Nat → List TokenStep),
      t.StopsAtFirst (t.runAmong others w token s)

/-- What can be said of all tokens from the steps that were taken with them. -/
structure Tokens.Follow (w : Tokens) (h : History) (steps : List TokenStep) : Prop where
  tokens_eq : h.tokens = w
  /-- A family is cancelled exactly if one of the steps has called `cancel` on a token that was of
  that family then. -/
  familyCancelled_iff : ∀ family, h.FamilyCancelled family ↔ ∃ before id rest o,
    steps = before ++ .cancel id :: rest ∧
      (History.empty.after before).origins[id]? = some o ∧ o.family = family
  follows : ∀ id o (token : Token), h.origins[id]? = some o → w.made[id]? = some token →
    token.Follows id o h w

theorem History.follows {h : History} {id : Nat} {o : Origin} (ho : h.origins[id]? = some o) :
    o.token.Follows id o h h.tokens where
  isCancelled_iff := isCancelled_iff ho
  isCancelled_iff_of_not_started := isCancelled_iff_of_not_started ho
  final hid more := (Tokens.later_after _ more).isCancelled hid
  isCancelled_cancel_iff _ _ ho' := isCancelled_cancel_iff ho ho'
  isCancelled_next _ hcancel hwait := by
    have htoken : h.tokens.made[id]? = some o.token := by rw [getElem?_made, ho]; rfl
    exact Tokens.isCancelled_next htoken hcancel hwait
  isCancelled_start_iff := isCancelled_start_iff ho
  stopsAtFirst hcancelled t s others := by
    refine Tree.runAmong_of_cancelled (hcancelled.imp (fun hfamily => ?_) fun htimeout => ?_)
    · rw [Origin.token, Making.family_applyAll]
      exact List.mem_map.mpr hfamily
    · exact Making.timeout_applyAll.mpr htimeout

/-- After any steps, whether a token is cancelled depends on its family and its deadline alone.
Cancellation is final and shared by a family, and stops a run under a token before any node. -/
theorem cancellation_is_final_and_shared (steps : List TokenStep) :
    (Tokens.empty.after steps).Follow (History.empty.after steps) steps where
  tokens_eq := History.tokens_after steps
  familyCancelled_iff _ := History.familyCancelled_iff
  follows id o token ho htoken := by
    have htokens : (History.empty.after steps).tokens = Tokens.empty.after steps :=
      History.tokens_after steps
    rw [← htokens, History.getElem?_made, ho] at htoken
    rw [← htokens, ← Option.some.inj htoken]
    exact History.follows ho

/-- The clone of a token is cancelled, and with it the token itself. In another family a copy runs
out when the deadline is reached that its start has fixed, and what it was started from does not.
Runs stop under the cancelled token, and under one with a timeout of zero. -/
theorem cancellation_is_final_and_shared_of_clone :
    let steps : List TokenStep := [.begin, .clone 0, .cancel 1, .begin, .withTimeout 2 0,
      .withTimeout 2 5, .start 4, .wait 5]
    let w := Tokens.empty.after steps
    (∀ more, (w.after more).isCancelled 0 = true) ∧
      (∀ more, (w.after more).isCancelled 5 = true) ∧ ¬ w.isCancelled 4 = true ∧
      w.made[0]? = some (.first 0) ∧ w.made[3]? = some ((Token.first 1).withTimeout 0) ∧
      ∀ (t : Tree) (s : CandidateSpace) (others : Nat → List TokenStep),
        t.StopsAtFirst (t.runAmong others w (.first 0) s) ∧
        t.StopsAtFirst (t.runAmong others w ((Token.first 1).withTimeout 0) s) := by
  intro steps w
  have h := cancellation_is_final_and_shared steps
  have hfirst := h.follows 0 ⟨0, []⟩ (.first 0) rfl rfl
  have hzero := h.follows 3 ⟨1, [.withTimeout 0]⟩ ((Token.first 1).withTimeout 0) rfl rfl
  have hwaiting := h.follows 4 ⟨1, [.withTimeout 5]⟩ ⟨1, some 5, none⟩ rfl rfl
  have hstarted := h.follows 5 ⟨1, [.withTimeout 5, .start 0]⟩ ⟨1, some 5, some 5⟩ rfl rfl
  have hfamily : (History.empty.after steps).FamilyCancelled 0 :=
    (h.familyCancelled_iff 0).mpr ⟨[.begin, .clone 0], 1, _, ⟨0, [.clone]⟩, rfl, rfl, rfl⟩
  have hother : ¬ (History.empty.after steps).FamilyCancelled 1 := by
    rintro ⟨o, ho, hone⟩
    obtain rfl : o = ⟨0, [.clone]⟩ := List.mem_singleton.mp ho
    cases hone
  have htimeout : Making.LatestTimeout [.withTimeout 0] 0 := ⟨[], ⟨0, rfl⟩, [], rfl, nofun⟩
  have hdeadline : Making.Deadline [.withTimeout 5, .start 0] 5 :=
    ⟨[.withTimeout 5], 0, 5, ⟨⟨0, rfl⟩, [], rfl, nofun⟩, ⟨[], ⟨5, rfl⟩, [], rfl, nofun⟩, rfl⟩
  exact ⟨hfirst.final (hfirst.isCancelled_iff.mpr (.inl hfamily)),
    hstarted.final (hstarted.isCancelled_iff.mpr (.inr ⟨5, hdeadline, le_rfl⟩)),
    (hwaiting.isCancelled_iff_of_not_started (by simp)).not.mpr hother, rfl, rfl,
    fun t s others => ⟨hfirst.stopsAtFirst (.inl hfamily) t s others,
      hzero.stopsAtFirst (.inr htimeout) t s others⟩⟩

end TraceRecovery
