import TraceRecovery.Proofs.Fallible
import TraceRecovery.Proofs.Tree.Sorting
import TraceRecovery.Tree.Draft

/-!
# What can be built

Building accepts exactly the well-formed drafts (`Draft.WellFormed`), and a refusal names the first
condition that fails (`Draft.Refused`). The steps of `Draft.build` are looked at one by one:

* `Node.validate_eq_ok_iff`: a node passes its check if it has the inputs that its kind asks for;
* `validateNodes_eq_error_iff`: the check of all nodes stops at the first that fails;
* `danglingInput?_eq_some_iff`, `danglingInput?_eq_none_iff`: the first input that is no node;
* `Schedule.cycle_of_sort_eq_error`, `Schedule.Sorting.acyclic`: sorting fails exactly on cycles.

All of this holds of any draft. That the numbers of its nodes are those handed out is an invariant
of the calls by which it is made (`Draft.Progress.handedOut_call`).
-/

namespace TraceRecovery

/-- Whether an aggregation can combine that many children: there is at least one, and a weighted
mean has one finite and non-negative weight for each. -/
def Aggregation.Admits (a : Aggregation) (children : Nat) : Prop :=
  0 < children ∧ ∀ ws, a = .weighted ws →
    ws.length = children ∧ ∀ w ∈ ws, w.isFinite = true ∧ 0 ≤ w

theorem Aggregation.validate_eq_ok_iff {a : Aggregation} {children : Nat} :
    a.validate children = .ok () ↔ a.Admits children := by
  unfold validate Admits
  rcases Nat.eq_zero_or_pos children with rfl | hpos
  · simp
  rw [if_neg (by omega)]
  cases a with
  | average => simp [hpos]
  | min => simp [hpos]
  | max => simp [hpos]
  | weighted ws =>
    simp only [weighted.injEq, forall_eq', hpos, true_and]
    by_cases hlen : ws.length = children
    · rw [if_neg (not_not.mpr hlen)]
      split
      · rename_i bad hfind
        constructor
        · intro h
          cases h
        · intro h
          obtain ⟨hfin, hle⟩ := h.2 bad (List.mem_of_find?_eq_some hfind)
          have hbad := List.find?_some hfind
          simp [isWeight, hfin, hle] at hbad
      · rename_i hfind
        have hall := List.find?_eq_none.mp hfind
        simp only [isWeight, Bool.not_eq_true', Bool.not_eq_false, Bool.and_eq_true,
          decide_eq_true_eq] at hall
        exact ⟨fun _ => ⟨hlen, hall⟩, fun _ => rfl⟩
    · simp [hlen]

theorem Aggregation.validate_eq_error {a : Aggregation} {children : Nat} {e : TraceError}
    (h : a.validate children = .error e) : ∃ fault, e = .invalidArgument fault := by
  unfold validate at h
  split at h
  · exact ⟨_, (Except.error.inj h).symm⟩
  · split at h
    · split at h
      · exact ⟨_, (Except.error.inj h).symm⟩
      · split at h
        · exact ⟨_, (Except.error.inj h).symm⟩
        · cases h
    · cases h

namespace Node

/-- Whether a node has the inputs that its kind asks for: a leaf has dependencies exactly if its
heuristic is dependent, and an aggregation admits the number of its children. -/
def Admissible (n : Node) : Prop :=
  match n.kind with
  | .leaf h dependencies => h.kind = .dependent ↔ dependencies ≠ []
  | .inner a children => a.Admits children.length

theorem validate_eq_ok_iff {n : Node} : n.validate = .ok () ↔ n.Admissible := by
  unfold validate Admissible
  cases n.kind with
  | inner a children => exact Aggregation.validate_eq_ok_iff
  | leaf h dependencies =>
    cases hk : h.kind <;> cases dependencies <;> simp [hk]

theorem validate_eq_error {n : Node} {e : TraceError} (h : n.validate = .error e) :
    ∃ fault, e = .invalidArgument fault := by
  unfold validate at h
  split at h
  · split at h
    · exact ⟨_, (Except.error.inj h).symm⟩
    · exact ⟨_, (Except.error.inj h).symm⟩
    · cases h
  · exact Aggregation.validate_eq_error h

theorem exists_of_mem_inputsIn {nodes : List Node} {id i : NodeId} (h : i ∈ inputsIn nodes id) :
    ∃ n, nodes[id]? = some n ∧ i ∈ n.inputs := by
  unfold inputsIn at h
  split at h
  · exact ⟨_, ‹_›, h⟩
  · cases h

theorem lt_of_mem_inputsIn {nodes : List Node} {id i : NodeId} (h : i ∈ inputsIn nodes id) :
    id < nodes.length := by
  obtain ⟨n, hn, -⟩ := exists_of_mem_inputsIn h
  exact (List.getElem?_eq_some_iff.mp hn).1

end Node

namespace Draft

/-- Whether a draft is that of a tree with the given root. All nodes count, whether the root needs
them or not. -/
structure WellFormed (d : Draft) (root : NodeId) : Prop where
  root_lt : root < d.nodes.length
  admissible : ∀ n ∈ d.nodes, n.Admissible
  resolved : ∀ n ∈ d.nodes, ∀ i ∈ n.inputs, i < d.nodes.length
  acyclic : Schedule.Acyclic d.inputs

/-- Why a draft is refused. Each reason is given only if none of those before it holds. -/
inductive Refused (d : Draft) (root : NodeId) : TraceError → Prop
  /-- The root is no node. -/
  | unknownRoot : d.nodes.length ≤ root → Refused d root (.unresolved (.rootNode root))
  /-- A node lacks the inputs that its kind asks for, and is the first. -/
  | invalidNode {before after : List Node} {n : Node} {fault : InvalidArgument} :
      root < d.nodes.length →
      d.nodes = before ++ n :: after → (∀ m ∈ before, m.Admissible) → ¬ n.Admissible →
      n.validate = .error (.invalidArgument fault) → Refused d root (.invalidArgument fault)
  /-- An input of a node is no node, and is the first of the first such node. -/
  | danglingInput {before after : List Node} {n : Node} {earlier later : List NodeId} {i : NodeId} :
      root < d.nodes.length → (∀ m ∈ d.nodes, m.Admissible) →
      d.nodes = before ++ n :: after → (∀ m ∈ before, ∀ j ∈ m.inputs, j < d.nodes.length) →
      n.inputs = earlier ++ i :: later → (∀ j ∈ earlier, j < d.nodes.length) →
      d.nodes.length ≤ i → Refused d root (.unresolved (.input n.label i))
  /-- A node reads itself, directly or through others. -/
  | cycle {id : NodeId} {n : Node} :
      root < d.nodes.length → (∀ m ∈ d.nodes, m.Admissible) →
      (∀ m ∈ d.nodes, ∀ j ∈ m.inputs, j < d.nodes.length) →
      d.nodes[id]? = some n → Relation.TransGen (Schedule.Reads d.inputs) id id →
      Refused d root (.cyclicDependency n.label)

theorem validateNodes_eq_error_iff {ns : List Node} {e : TraceError} :
    validateNodes ns = .error e ↔ ∃ before n after, ns = before ++ n :: after ∧
      (∀ m ∈ before, m.validate = .ok ()) ∧ n.validate = .error e := by
  induction ns with
  | nil => simp [validateNodes]
  | cons n ns ih =>
    rw [validateNodes]
    cases hn : n.validate with
    | error e' =>
      simp only [bind, Except.bind, Except.error.injEq]
      constructor
      · rintro rfl
        exact ⟨[], n, ns, rfl, by simp, hn⟩
      · rintro ⟨before, m, after, heq, hok, hm⟩
        cases before with
        | nil =>
          obtain ⟨rfl, rfl⟩ := List.cons.inj heq
          exact Except.error.inj (hn.symm.trans hm)
        | cons b before =>
          obtain ⟨rfl, -⟩ := List.cons.inj heq
          exact absurd (hn.symm.trans (hok n List.mem_cons_self)) (by simp)
    | ok u =>
      simp only [bind, Except.bind, ih]
      constructor
      · rintro ⟨before, m, after, rfl, hok, hm⟩
        exact ⟨n :: before, m, after, rfl, List.forall_mem_cons.mpr ⟨hn, hok⟩, hm⟩
      · rintro ⟨before, m, after, heq, hok, hm⟩
        cases before with
        | nil =>
          obtain ⟨rfl, rfl⟩ := List.cons.inj heq
          exact absurd (hn.symm.trans hm) (by simp)
        | cons b before =>
          obtain ⟨rfl, rfl⟩ := List.cons.inj heq
          exact ⟨before, m, after, rfl, (List.forall_mem_cons.mp hok).2, hm⟩

theorem danglingInput?_eq_none_iff {d : Draft} :
    d.danglingInput? = none ↔ ∀ n ∈ d.nodes, ∀ i ∈ n.inputs, i < d.nodes.length := by
  simp [danglingInput?]

theorem danglingInput?_eq_some_iff {d : Draft} {n : Node} {i : NodeId} :
    d.danglingInput? = some (n, i) ↔ ∃ before after earlier later,
      d.nodes = before ++ n :: after ∧ (∀ m ∈ before, ∀ j ∈ m.inputs, j < d.nodes.length) ∧
      n.inputs = earlier ++ i :: later ∧ (∀ j ∈ earlier, j < d.nodes.length) ∧
      d.nodes.length ≤ i := by
  simp only [danglingInput?, List.findSome?_eq_some_iff, Option.map_eq_some_iff, Prod.mk.injEq,
    List.find?_eq_some_iff_append, decide_eq_true_eq, Option.map_eq_none_iff, List.find?_eq_none,
    Bool.not_eq_true', decide_eq_false_iff_not, Nat.not_le]
  constructor
  · rintro ⟨before, m, after, hnodes, ⟨j, ⟨hle, earlier, later, hin, hearlier⟩, rfl, rfl⟩, hbefore⟩
    exact ⟨before, after, earlier, later, hnodes, hbefore, hin, hearlier, hle⟩
  · rintro ⟨before, after, earlier, later, hnodes, hbefore, hin, hearlier, hle⟩
    exact ⟨before, n, after, hnodes, ⟨i, ⟨hle, earlier, later, hin, hearlier⟩, rfl, rfl⟩, hbefore⟩

theorem lt_of_mem_inputs {d : Draft} {id i : NodeId} (h : i ∈ d.inputs id) : id < d.nodes.length :=
  Node.lt_of_mem_inputsIn h

/-- Where all inputs are nodes, they are so by the numbers of their readers too. -/
theorem input_lt {d : Draft} (h : ∀ n ∈ d.nodes, ∀ i ∈ n.inputs, i < d.nodes.length)
    {id i : NodeId} (hi : i ∈ d.inputs id) : i < d.nodes.length := by
  obtain ⟨n, hn, hi⟩ := Node.exists_of_mem_inputsIn hi
  exact h n (List.mem_of_getElem? hn) i hi

/-- If the check of all nodes fails, the draft is refused for the first invalid node. -/
theorem Refused.of_validateNodes {d : Draft} {root : NodeId} {e : TraceError}
    (hroot : root < d.nodes.length) (h : validateNodes d.nodes = .error e) : d.Refused root e := by
  obtain ⟨before, n, after, hnodes, hbefore, hn⟩ := validateNodes_eq_error_iff.mp h
  obtain ⟨fault, rfl⟩ := Node.validate_eq_error hn
  have hinvalid : ¬ n.Admissible := fun ha => by
    rw [Node.validate_eq_ok_iff.mpr ha] at hn
    cases hn
  have hadmissible : ∀ m ∈ before, m.Admissible := fun m hm =>
    Node.validate_eq_ok_iff.mp (hbefore m hm)
  exact .invalidNode hroot hnodes hadmissible hinvalid hn

/-- If sorting fails, the draft is refused for a node on a cycle. -/
theorem Refused.of_sort {d : Draft} {root id : NodeId} (hroot : root < d.nodes.length)
    (hadmissible : ∀ m ∈ d.nodes, m.Admissible)
    (hresolved : ∀ m ∈ d.nodes, ∀ j ∈ m.inputs, j < d.nodes.length)
    (h : Schedule.sort d.inputs d.nodes.length = .error id) :
    d.Refused root (.cyclicDependency (Node.labelIn d.nodes id)) := by
  obtain ⟨hid, hcycle⟩ :=
    Schedule.cycle_of_sort_eq_error (fun j _ i hi => input_lt hresolved hi) h
  have hn : d.nodes[id]? = some d.nodes[id] := List.getElem?_eq_getElem hid
  rw [Node.labelIn, hn]
  exact .cycle hroot hadmissible hresolved hn hcycle

/-- What a draft is like that has been built or refused, and what tree is built from it. -/
theorem build_ends (d : Draft) (root : NodeId) :
    Fallible.Ends
      (fun t => d.WellFormed root ∧ t.name = d.name ∧ t.nodes = d.nodes ∧ t.root = root)
      (d.Refused root) (d.build root) := by
  unfold build
  split
  · rename_i hroot
    split
    · rename_i e hvalid
      exact .of_validateNodes hroot hvalid
    · rename_i hvalid
      have hadmissible : ∀ m ∈ d.nodes, m.Admissible := fun m hm =>
        Node.validate_eq_ok_iff.mp (validateNodes_eq_ok_iff.mp hvalid m hm)
      split
      · rename_i n i hdangling
        obtain ⟨before, after, earlier, later, hnodes, hbefore, hin, hearlier, hle⟩ :=
          danglingInput?_eq_some_iff.mp hdangling
        exact .danglingInput hroot hadmissible hnodes hbefore hin hearlier hle
      · rename_i hdangling
        have hresolved := danglingInput?_eq_none_iff.mp hdangling
        split
        · rename_i id hsort
          exact .of_sort hroot hadmissible hresolved hsort
        · rename_i g hsort
          have hacyclic := g.acyclic fun _ _ => lt_of_mem_inputs
          exact ⟨⟨hroot, hadmissible, hresolved, hacyclic⟩, rfl, rfl, rfl⟩
  · rename_i hroot
    exact .unknownRoot (Nat.not_lt.mp hroot)

theorem WellFormed.not_refused {d : Draft} {root : NodeId} {e : TraceError}
    (h : d.WellFormed root) : ¬ d.Refused root e := by
  intro hr
  cases hr with
  | unknownRoot hle => exact absurd h.root_lt (Nat.not_lt.mpr hle)
  | invalidNode _ hnodes _ hn _ =>
    exact hn (h.admissible _ (hnodes ▸ List.mem_append_right _ List.mem_cons_self))
  | danglingInput _ _ hnodes _ hin _ hle =>
    exact absurd (h.resolved _ (hnodes ▸ List.mem_append_right _ List.mem_cons_self) _
      (hin ▸ List.mem_append_right _ List.mem_cons_self)) (Nat.not_lt.mpr hle)
  | cycle _ _ _ _ hcycle => exact h.acyclic _ hcycle

/-! ## Sequences of calls -/

/-- A call that adds a node to a draft or changes one. -/
inductive Call where
  | addLeaf (h : Heuristic)
  | addInner (a : Aggregation) (children : List NodeId)
  | dependsOn (id dependency : NodeId)
  | relabel (id : NodeId) (label : String)

/-- A draft and the numbers that have been handed out for its nodes. -/
structure Progress where
  draft : Draft
  handedOut : List NodeId

namespace Progress

/-- The draft after a call. A call that is refused leaves it as it is. -/
def call (p : Progress) : Call → Progress
  | .addLeaf h => ⟨(p.draft.addLeaf h).2, p.handedOut ++ [(p.draft.addLeaf h).1]⟩
  | .addInner a children =>
    ⟨(p.draft.addInner a children).2, p.handedOut ++ [(p.draft.addInner a children).1]⟩
  | .dependsOn id dependency =>
    match p.draft.dependsOn id dependency with
    | .ok d => { p with draft := d }
    | .error _ => p
  | .relabel id label =>
    match p.draft.relabel id label with
    | .ok d => { p with draft := d }
    | .error _ => p

/-- A new draft after some calls. -/
def after (name : String) (calls : List Call) : Progress := calls.foldl call ⟨.empty name, []⟩

end Progress

theorem length_nodes_dependsOn {d d' : Draft} {id dependency : NodeId}
    (h : d.dependsOn id dependency = .ok d') : d'.nodes.length = d.nodes.length := by
  unfold dependsOn at h
  cases hn : d.node id with
  | error e =>
    rw [hn] at h
    cases h
  | ok n =>
    rw [hn] at h
    simp only [bind, Except.bind] at h
    split at h
    · cases h
      exact List.length_set
    · cases h

theorem length_nodes_relabel {d d' : Draft} {id : NodeId} {label : String}
    (h : d.relabel id label = .ok d') : d'.nodes.length = d.nodes.length := by
  unfold relabel at h
  cases hn : d.node id with
  | error e =>
    rw [hn] at h
    cases h
  | ok n =>
    rw [hn] at h
    cases h
    exact List.length_set

/-- If the numbers of all nodes have been handed out before a call, so they have after it. -/
theorem Progress.handedOut_call {p : Progress}
    (h : p.handedOut = List.range p.draft.nodes.length) (c : Call) :
    (p.call c).handedOut = List.range (p.call c).draft.nodes.length := by
  cases c with
  | addLeaf heuristic =>
    simp only [call, addLeaf, add, h, List.length_append, List.length_singleton, List.range_succ]
  | addInner a children =>
    simp only [call, addInner, add, h, List.length_append, List.length_singleton, List.range_succ]
  | dependsOn id dependency =>
    simp only [call]
    split
    · rename_i d hd
      exact h.trans (congrArg List.range (length_nodes_dependsOn hd).symm)
    · exact h
  | relabel id label =>
    simp only [call]
    split
    · rename_i d hd
      exact h.trans (congrArg List.range (length_nodes_relabel hd).symm)
    · exact h

/-- The numbers handed out by calls are those of all nodes. -/
theorem Progress.handedOut_after (name : String) (calls : List Call) :
    (after name calls).handedOut = List.range (after name calls).draft.nodes.length := by
  have hcalls : ∀ p : Progress, p.handedOut = List.range p.draft.nodes.length →
      (calls.foldl call p).handedOut =
        List.range (calls.foldl call p).draft.nodes.length := by
    induction calls with
    | nil => exact fun p h => h
    | cons c calls ih => exact fun p h => ih (p.call c) (handedOut_call h c)
  exact hcalls _ rfl

/-- Whatever calls have been made, a draft can be built exactly if it is well-formed, and is
otherwise refused for the first condition that fails. The tree has the nodes of the draft, whose
numbers are those that have been handed out. -/
theorem build_accepts_exactly_wellFormed (name : String) (calls : List Call) (root : NodeId) :
    let p := Progress.after name calls
    (∀ id, id ∈ p.handedOut ↔ id < p.draft.nodes.length) ∧
      ((∃ t, p.draft.build root = .ok t) ↔ p.draft.WellFormed root) ∧
      (∀ t, p.draft.build root = .ok t →
        t.name = p.draft.name ∧ t.nodes = p.draft.nodes ∧ t.root = root) ∧
      ∀ e, p.draft.build root = .error e → p.draft.Refused root e := by
  intro p
  have hbuild := p.draft.build_ends root
  refine ⟨fun id => ?_, ⟨?_, fun hwf => ?_⟩, fun t h => (hbuild.of_eq_ok h).2,
    fun e h => hbuild.of_eq_error h⟩
  · rw [Progress.handedOut_after name calls, List.mem_range]
  · rintro ⟨t, h⟩
    exact (hbuild.of_eq_ok h).1
  · cases h : p.draft.build root with
    | ok t => exact ⟨t, rfl⟩
    | error e => exact absurd (hbuild.of_eq_error h) hwf.not_refused

end Draft

end TraceRecovery
