import TraceRecovery.Link.Report
import TraceRecovery.Proofs.Confidence.Order
import TraceRecovery.Proofs.Heuristic.Linked
import TraceRecovery.Proofs.Tree.Outcomes
import TraceRecovery.Tree.Standard

/-!
# The nodes of the standard tree

The standard tree has eight nodes (`Tree.standard_eq`), all of which its root needs, and settings in
range are all that it takes to build it (`Tree.exists_standard_iff`). What each node gives to a
candidate is stated in one place, `StandardNode.score`, from the tables of the nodes that it reads:

* `StandardNode.value_eq_score`: the recursion over the tree gives just that;
* `StandardNode.exists_tabled`: so the tables of a finished run satisfy eight equations
  (`StandardNode.Tabled`), from which everything else about runs of the standard tree follows.
-/

namespace TraceRecovery

/-- The nodes of the standard tree, in the order in which they are added. -/
inductive StandardNode where
  /-- Names of items and units. -/
  | names
  /-- Names of items and paths of units. -/
  | paths
  /-- The weighted mean of these two. -/
  | weighted
  /-- Names of items and of units outside packages. -/
  | outside
  /-- Names of interfaces and units. -/
  | interfaces
  /-- Companions of linked units. -/
  | companions
  /-- Units that inherit from linked units. -/
  | heirs
  /-- The greatest confidence of the five before. -/
  | root
deriving DecidableEq

namespace StandardNode

/-- All nodes in order. -/
def all : List StandardNode :=
  [names, paths, weighted, outside, interfaces, companions, heirs, root]

/-- The number of a node. -/
def id : StandardNode → NodeId
  | names => 0
  | paths => 1
  | weighted => 2
  | outside => 3
  | interfaces => 4
  | companions => 5
  | heirs => 6
  | root => 7

/-- The nodes that a node reads. -/
def reads : StandardNode → List StandardNode
  | names | paths | outside | interfaces => []
  | weighted => [names, paths]
  | companions | heirs => [weighted]
  | root => [weighted, outside, interfaces, companions, heirs]

/-- A leaf, which is labelled with the id of its heuristic. -/
def leaf (h : Heuristic) (inputs : List NodeId) : Node := ⟨h.id, .leaf h inputs⟩

/-- A node of the tree. -/
def node (σ : Settings) (n : StandardNode) : Node :=
  let inputs := n.reads.map id
  match n with
  | names => leaf (.byName .component σ.preprocessor) inputs
  | paths => leaf .byPath inputs
  | weighted => ⟨Tree.weightedLabel, .inner (.weighted σ.weights) inputs⟩
  | outside => leaf (.byName .componentWithoutPackage σ.preprocessor) inputs
  | interfaces => leaf (.byName .interface σ.preprocessor) inputs
  | companions => leaf (.byCompanions σ.commonWords) inputs
  | heirs => leaf .byInheritance inputs
  | root => ⟨Aggregation.max.name, .inner .max inputs⟩

/-- The draft that the standard tree is built from. -/
def draft (σ : Settings) : Draft := ⟨Tree.standardName, all.map (node σ)⟩

end StandardNode

open StandardNode

variable {σ : Settings} {t : Tree} {s : CandidateSpace} {e : Evaluation} {T : StandardNode → Table}
  {c : Candidate}

/-! ## Building the tree -/

/-- Settings in range have a finite and non-negative weight for names and one for paths. -/
theorem Settings.weights_of_validate (h : σ.validate = .ok ()) :
    σ.weights.length = 2 ∧ ∀ w ∈ σ.weights, w.isFinite = true ∧ 0 ≤ w := by
  unfold validate at h
  split at h
  · cases h
  split at h
  · cases h
  split at h
  · cases h
  rename_i hlen hany
  refine ⟨not_not.mp hlen, fun w hw => ?_⟩
  simp only [List.any_eq_true, not_exists, not_and, Bool.or_eq_true, Bool.not_eq_true', not_or,
    decide_eq_true_eq, Bool.not_eq_false] at hany
  obtain ⟨hfinite, hlt⟩ := hany w hw
  have hzero : Double.IsNumber 0 := Double.isNumber_of_isFinite rfl
  exact ⟨hfinite, (Double.not_lt_iff (Double.isNumber_of_isFinite hfinite) hzero).mp hlt⟩

namespace StandardNode

variable {n : StandardNode}

theorem inputs_node (σ : Settings) (n : StandardNode) : (n.node σ).inputs = n.reads.map id := by
  cases n <;> rfl

theorem id_lt_of_mem_reads {m : StandardNode} (h : m ∈ n.reads) : m.id < n.id := by
  revert h
  cases m <;> cases n <;> decide

/-- What holds of a node if it holds of those that it reads holds of all nodes. -/
theorem reads_induction {P : StandardNode → Prop}
    (step : ∀ n : StandardNode, (∀ m ∈ n.reads, P m) → P n) (n : StandardNode) : P n :=
  (measure StandardNode.id).wf.induction n fun n ih =>
    step n fun m hm => ih m (id_lt_of_mem_reads hm)

theorem getElem?_draft (σ : Settings) (n : StandardNode) :
    (draft σ).nodes[n.id]? = some (n.node σ) := by
  cases n <;> rfl

/-- There are no other nodes. -/
theorem exists_eq_id {i : NodeId} (h : i < (draft σ).nodes.length) :
    ∃ n : StandardNode, i = n.id := by
  have hall : all.map id = List.range (draft σ).nodes.length := rfl
  have hmem : i ∈ all.map id := hall ▸ List.mem_range.mpr h
  obtain ⟨n, -, rfl⟩ := List.mem_map.mp hmem
  exact ⟨n, rfl⟩

theorem lt_of_mem_inputs_draft {i j : NodeId} (h : j ∈ (draft σ).inputs i) : j < i := by
  obtain ⟨_, hn, hj⟩ := Node.exists_of_mem_inputsIn h
  obtain ⟨n, rfl⟩ := exists_eq_id (List.getElem?_eq_some_iff.mp hn).1
  rw [getElem?_draft] at hn
  rw [← Option.some.inj hn, inputs_node] at hj
  obtain ⟨m, hm, rfl⟩ := List.mem_map.mp hj
  exact id_lt_of_mem_reads hm

theorem admissible_leaf {h : Heuristic} {inputs : List NodeId}
    (hi : h.kind = .dependent ↔ inputs ≠ []) : (leaf h inputs).Admissible := hi

theorem admissible_node (h : σ.validate = .ok ()) (n : StandardNode) : (n.node σ).Admissible := by
  cases n
  case weighted =>
    obtain ⟨hlen, hweights⟩ := Settings.weights_of_validate h
    refine ⟨Nat.two_pos, fun weights hw => ?_⟩
    rw [← Aggregation.weighted.inj hw]
    exact ⟨hlen, hweights⟩
  case root => exact ⟨Nat.succ_pos 4, fun _ hw => Aggregation.noConfusion hw⟩
  case companions => exact admissible_leaf (iff_of_true rfl (List.cons_ne_nil _ _))
  case heirs => exact admissible_leaf (iff_of_true rfl (List.cons_ne_nil _ _))
  all_goals exact admissible_leaf (iff_of_false HeuristicKind.noConfusion (not_not.mpr rfl))

theorem wellFormed_draft (h : σ.validate = .ok ()) : (draft σ).WellFormed root.id where
  root_lt := (List.getElem?_eq_some_iff.mp (getElem?_draft σ root)).1
  admissible n hn := by
    obtain ⟨n, -, rfl⟩ := List.mem_map.mp hn
    exact admissible_node h n
  resolved n hn i hi := by
    obtain ⟨n, -, rfl⟩ := List.mem_map.mp hn
    rw [inputs_node] at hi
    obtain ⟨m, -, rfl⟩ := List.mem_map.mp hi
    exact (List.getElem?_eq_some_iff.mp (getElem?_draft σ m)).1
  acyclic := Schedule.acyclic_of_lt fun _ _ => lt_of_mem_inputs_draft

end StandardNode

namespace Tree

theorem standard_eq (σ : Settings) :
    standard σ = (do σ.validate; (draft σ).build StandardNode.root.id) := by
  unfold standard
  refine congrArg _ (funext fun _ => ?_)
  simp [Draft.addLeaf, Draft.addInner, Draft.add, Draft.relabel, Draft.dependsOn, Draft.empty,
    Draft.node, bind, Except.bind, pure, Except.pure, draft, all, StandardNode.node, leaf, reads,
    StandardNode.id]

theorem standard_eq_ok (h : standard σ = .ok t) : σ.validate = .ok () ∧
    t.name = standardName ∧ t.nodes = (draft σ).nodes ∧ t.root = StandardNode.root.id := by
  rw [standard_eq] at h
  obtain ⟨⟨⟩, hvalid, hbuild⟩ := Fallible.bind_eq_ok_iff.mp h
  exact ⟨hvalid, (((draft σ).build_ends _).of_eq_ok hbuild).2⟩

/-- The standard tree can be built exactly under settings in range. -/
theorem exists_standard_iff : (∃ t, standard σ = .ok t) ↔ σ.validate = .ok () := by
  refine ⟨fun ⟨_, h⟩ => (standard_eq_ok h).1, fun h => ?_⟩
  rw [standard_eq, h]
  show ∃ t, (draft σ).build StandardNode.root.id = .ok t
  cases hbuild : (draft σ).build StandardNode.root.id with
  | ok t => exact ⟨t, rfl⟩
  | error e =>
    exact absurd (((draft σ).build_ends _).of_eq_error hbuild) (wellFormed_draft h).not_refused

end Tree

namespace StandardNode

variable {n : StandardNode}

theorem node_eq (ht : Tree.standard σ = .ok t) (n : StandardNode) :
    t.nodes[n.id]? = some (n.node σ) :=
  (Tree.standard_eq_ok ht).2.2.1 ▸ getElem?_draft σ n

/-- The root needs every node. -/
theorem needed (ht : Tree.standard σ = .ok t) (n : StandardNode) : t.Needed n.id := by
  have hinput : ∀ {m n : StandardNode}, t.Needed n.id → m ∈ n.reads → t.Needed m.id := by
    intro m n hn hm
    refine hn.input ?_
    rw [Tree.inputs_eq (node_eq ht n), inputs_node]
    exact List.mem_map_of_mem hm
  have hroot : t.Needed root.id := by
    rw [← (Tree.standard_eq_ok ht).2.2.2]
    exact .refl
  have hweighted : t.Needed weighted.id := hinput hroot (by decide)
  cases n
  case root => exact hroot
  case names => exact hinput hweighted (by decide)
  case paths => exact hinput hweighted (by decide)
  all_goals exact hinput hroot (by decide)

/-! ## What each node gives -/

/-- What a node that extends a base gives to a candidate: what the base gives to it if that is a
value, and else something of its own. -/
def extended (base : Table) (c : Candidate) (own : Except TraceError Confidence) :
    Except TraceError Confidence :=
  if (base.get c).isDefined then .ok (base.get c) else own

theorem extended_eq_own {base : Table} (h : base.get c = .unset)
    (own : Except TraceError Confidence) : extended base c own = own := by
  rw [extended, h]
  rfl

/-- What a node gives to a candidate, from the tables of the nodes that it reads. -/
def score (σ : Settings) (s : CandidateSpace) (T : StandardNode → Table) (n : StandardNode)
    (c : Candidate) : Except TraceError Confidence :=
  match n with
  | names => NameMatch.score .component σ.preprocessor c
  | paths => PathMatch.score c (.ofModels s.architecture s.code)
  | weighted => (Aggregation.weighted σ.weights).combine (weighted.reads.map fun m => (T m).get c)
  | outside => NameMatch.score .componentWithoutPackage σ.preprocessor c
  | interfaces => NameMatch.score .interface σ.preprocessor c
  | companions =>
    extended (T weighted) c (Companion.score σ.commonWords c (.reading s (T weighted)))
  | heirs => extended (T weighted) c (Inheritance.score c (.reading s (T weighted)))
  | root => .ok (.bestOf (root.reads.map fun m => (T m).get c))

/-- The recursion over the tree gives to a candidate what the node gives from the tables that the
recursion gives to the nodes that it reads. -/
theorem value_eq_score (ht : Tree.standard σ = .ok t)
    (hreads : ∀ m ∈ n.reads, t.table s m.id = .ok (T m)) (hc : c ∈ s.candidates) :
    t.value s n.id c = n.score σ s T c := by
  have htables : List.Forall₂ (fun i tb => t.table s i = .ok tb) (n.node σ).inputs
      (n.reads.map T) := by
    rw [inputs_node, List.forall₂_map_left_iff, List.forall₂_map_right_iff, List.forall₂_same]
    exact hreads
  rw [Tree.value_eq_confidence (node_eq ht n) htables hc]
  have hextended : ∀ base own, Node.confidence (companions.node σ) [base] own c =
      extended base c (own c) := by
    intro base own
    have hcarried : (companions.node σ).carriedOver [base] c =
        if (base.get c).isDefined then some (base.get c) else none := rfl
    rw [Node.confidence, hcarried, extended]
    cases (base.get c).isDefined <;> rfl
  cases n
  case companions => exact hextended _ _
  case heirs => exact hextended _ _
  case root => exact Aggregation.combine_max _
  all_goals rfl

/-- Tables of all nodes over a space: each has what its node gives to the candidates. -/
structure Tabled (σ : Settings) (s : CandidateSpace) (T : StandardNode → Table) : Prop where
  isSealed : ∀ n, (T n).isSealed = true
  written : ∀ n, (T n).written = s.candidates
  score_eq : ∀ n : StandardNode, ∀ c ∈ s.candidates, n.score σ s T c = .ok ((T n).get c)

theorem score_eq_get (ht : Tree.standard σ = .ok t)
    (hreads : ∀ m ∈ n.reads, t.table s m.id = .ok (T m)) (hn : t.table s n.id = .ok (T n))
    (hc : c ∈ s.candidates) : n.score σ s T c = .ok ((T n).get c) := by
  rw [← value_eq_score ht hreads hc]
  exact Valuation.value_eq_get hn hc

theorem tabled_of_table_eq (ht : Tree.standard σ = .ok t)
    (hT : ∀ n : StandardNode, t.table s n.id = .ok (T n)) : Tabled σ s T where
  isSealed n := Valuation.isSealed_table (hT n)
  written n := Valuation.written_table (hT n)
  score_eq n _ hc := score_eq_get ht (fun m _ => hT m) (hT n) hc

/-- The tables that a run has published for all nodes; that of the root is its result. -/
structure Published (e : Evaluation) (T : StandardNode → Table) : Prop where
  table?_eq : ∀ n : StandardNode, e.board.table? n.id = some (T n)
  result_eq : e.result = T root

/-- The tables of a finished run of the standard tree. -/
theorem exists_tabled (ht : Tree.standard σ = .ok t) (he : t.Finished s e) :
    ∃ T : StandardNode → Table, Published e T ∧ Tabled σ s T := by
  choose T hboard htable using fun n => he.exists_table _ (needed ht n)
  refine ⟨T, ⟨hboard, ?_⟩, tabled_of_table_eq ht htable⟩
  have hresult := he.result_eq
  rw [(Tree.standard_eq_ok ht).2.2.2, hboard root] at hresult
  exact (Option.some.inj hresult).symm

/-- The links of a finished run are those of the root's table. -/
theorem Tabled.links_eq (hT : Tabled σ s T) (hp : Published e T) (he : t.Finished s e)
    (θ : Threshold) : e.links θ = .ok (s.candidates.filterMap (θ.link? (T root) t.name)) := by
  rw [Evaluation.links, Threshold.links, hp.result_eq, he.space_eq, he.treeName_eq,
    Table.ensureSealed, hT.isSealed root]
  rfl

/-! ## Tables of the nodes that read others -/

namespace Tabled

variable (hT : Tabled σ s T) (hc : c ∈ s.candidates)

include hT hc

theorem get_eq {x : Confidence} (h : n.score σ s T c = .ok x) : (T n).get c = x :=
  Except.ok.inj ((hT.score_eq n c hc).symm.trans h)

/-- What the weighted mean gives is carried over. -/
theorem carried (h : ((T weighted).get c).isDefined = true) :
    ∀ n ∈ [companions, heirs], (T n).get c = (T weighted).get c := by
  have hextended : ∀ own, extended (T weighted) c own = .ok ((T weighted).get c) :=
    fun own => if_pos h
  intro n hn
  simp only [List.mem_cons, List.not_mem_nil, or_false] at hn
  rcases hn with rfl | rfl
  · exact hT.get_eq hc (hextended _)
  · exact hT.get_eq hc (hextended _)

variable (h : (T weighted).get c = .unset)

include h

/-- Where the weighted mean abstains, each of the two nodes gives what its heuristic does. -/
theorem score_companions :
    Companion.score σ.commonWords c (.reading s (T weighted)) = .ok ((T companions).get c) := by
  rw [← hT.score_eq companions c hc]
  exact (extended_eq_own h _).symm

theorem score_heirs : Inheritance.score c (.reading s (T weighted)) = .ok ((T heirs).get c) := by
  rw [← hT.score_eq heirs c hc]
  exact (extended_eq_own h _).symm

theorem companions_eq : (T companions).get c =
    Companion.extension (Companion.ignoredWords σ.commonWords (.reading s (T weighted)))
      (T weighted) c :=
  Except.ok.inj ((hT.score_companions hc h).symm.trans (Companion.score_eq_ok _ h))

theorem heirs_eq : (T heirs).get c = Inheritance.extension (T weighted) c :=
  Except.ok.inj ((hT.score_heirs hc h).symm.trans
    (Inheritance.score_eq_ok (hT.written weighted) hc h))

end Tabled

end StandardNode

/-! ## A small example -/

namespace OrderDesk

/-- A component. -/
def orders : Item := .component "orders" "Orders"

/-- An interface with a method. -/
def billing : Item := .interface "billing" "Billing" ["pay"]

/-- A unit in a package that is named after the component and declares two types. -/
def orderUnit : CodeUnit :=
  { CodeUnit.named "a" "Orders" with
    package := some "shop"
    dataTypes := [⟨"Order", .classType, []⟩, ⟨"OrderLine", .recordType, []⟩] }

/-- A unit that inherits from it. -/
def invoiceUnit : CodeUnit :=
  (CodeUnit.named "b" "Invoice").withType ⟨"Invoice", .classType, ["Order"]⟩

/-- A unit that is named after the interface. -/
def billingUnit : CodeUnit := .named "c" "Billing"

/-- The packages, one of which is empty. -/
def packages : List Package := [⟨"shop", "shop"⟩, ⟨"tools", "tools"⟩]

def architecture : Architecture := ⟨[orders, billing], by decide⟩

def code : Code := ⟨[orderUnit, invoiceUnit, billingUnit], packages, by decide, by decide⟩

/-- A single candidate: a component and a unit of its name in a directory of its name. -/
def single : CandidateSpace where
  architecture := ⟨[.component "a" "Orders"], by decide⟩
  code := ⟨[(CodeUnit.named "x" "Orders").withPath ["orders"]], [], by decide, by decide⟩

end OrderDesk

end TraceRecovery
