import TraceRecovery.Proofs.Standard.Nodes

/-!
# Dependent nodes extend their bases

A dependent node adds confidences to those of its base and changes none. So its table has the
confidences of the base's table where these are defined (`Table.ExtendedBy`), and the units that the
base links to an item are linked by the node too, in the same order
(`Table.ExtendedBy.linkedUnits_sublist`). This carries over to chains of dependent nodes.

It also means that a heuristic is never asked about a candidate that the base defines. If another
heuristic takes its place that differs only there (`Tree.AgreeWhereOpen`), no node gives anything
else to any candidate (`Tree.Replaces.value_eq`), and runs do not differ at all
(`Tree.Replaces.runInTurns_eq`).
-/

namespace TraceRecovery

/-! ## Tables -/

namespace Table

variable {base tb : Table} {c : Candidate}

/-- Another table has entries for the same candidates, and the same confidences where this one
defines them. -/
structure ExtendedBy (base tb : Table) : Prop where
  written_eq : tb.written = base.written
  get_eq : ∀ c, (base.get c).isDefined = true → tb.get c = base.get c

theorem ExtendedBy.trans {tb' : Table} (h : base.ExtendedBy tb) (h' : tb.ExtendedBy tb') :
    base.ExtendedBy tb' where
  written_eq := h'.written_eq.trans h.written_eq
  get_eq c hc := by
    have hget := h.get_eq c hc
    rw [h'.get_eq c (hget ▸ hc), hget]

theorem get_eq_unset (h : c ∉ tb.written) : tb.get c = .unset := by
  have hnone : tb.entries.lookup c = none := by
    refine List.lookup_eq_none_iff.mpr fun e he => ?_
    have hne : c ≠ e.1 := fun heq => h (heq ▸ List.mem_map_of_mem he)
    simpa using hne
  rw [get, hnone, Option.getD_none]

/-- Where no candidate is written twice, the linked units follow from what is written and from the
confidences. -/
theorem linkedUnits_eq (hn : tb.written.Nodup) (itemId : String) :
    tb.linkedUnits itemId =
      (tb.written.filter fun c => c.item.id == itemId && (tb.get c).isDefined).map
        Candidate.unit := by
  have hvalue : ∀ e ∈ tb.entries, tb.get e.1 = e.2 :=
    fun e he => ((mem_entries_iff hn).mp he).2.symm
  have hfilter : (tb.entries.filter fun e => e.1.item.id == itemId && e.2.isDefined) =
      tb.entries.filter fun e => e.1.item.id == itemId && (tb.get e.1).isDefined :=
    List.filter_congr fun e he => by rw [hvalue e he]
  rw [linkedUnits, hfilter, written, List.filter_map, List.map_map]
  rfl

/-- What is linked stays linked, in the same order. -/
theorem ExtendedBy.linkedUnits_sublist (h : base.ExtendedBy tb) (hn : base.written.Nodup)
    (itemId : String) : (base.linkedUnits itemId).Sublist (tb.linkedUnits itemId) := by
  rw [linkedUnits_eq hn, linkedUnits_eq (h.written_eq ▸ hn), h.written_eq]
  refine List.Sublist.map _ (List.monotone_filter_right _ fun c hc => ?_)
  obtain ⟨hitem, hdefined⟩ := Bool.and_eq_true_iff.mp hc
  rw [h.get_eq c hdefined, hitem, hdefined]
  rfl

end Table

namespace Tree

variable {t : Tree} {s : CandidateSpace} {b d : NodeId} {base tb : Table} {e : Evaluation}

/-! ## Chains of dependent nodes -/

variable (t) in
/-- A node is dependent, and another one is the first that it reads. -/
def Extends (b d : NodeId) : Prop :=
  ∃ n, t.nodes[d]? = some n ∧ n.isDependent = true ∧ n.inputs.head? = some b

theorem Extends.mem_inputs (h : t.Extends b d) : b ∈ t.inputs d := by
  obtain ⟨n, hn, -, hhead⟩ := h
  rw [inputs_eq hn]
  exact List.mem_of_mem_head? hhead

/-- A dependent node gives what its base defines. -/
theorem Extends.value_eq (h : t.Extends b d) (hbase : t.table s b = .ok base)
    {c : Candidate} (hc : c ∈ s.candidates) (hdefined : (base.get c).isDefined = true) :
    t.value s d c = .ok (base.get c) := by
  obtain ⟨n, hn, hdependent, hhead⟩ := h
  obtain ⟨rest, hinputs⟩ := List.head?_eq_some_iff.mp hhead
  have hvalue : t.value s b c = .ok (base.get c) := Valuation.value_eq_get hbase hc
  rw [Tree.value_eq hn, hinputs]
  cases hk : n.kind with
  | inner a children => simp [Node.isDependent, hk] at hdependent
  | leaf g dependencies =>
    have hkind : g.kind = .dependent := by simpa [Node.isDependent, hk] using hdependent
    simp only [Node.valueFrom, hk, hkind, List.map_cons]
    show (t.value s b c >>= _) = _
    rw [hvalue]
    show (if (base.get c).isDefined = true then _ else _) = _
    rw [if_pos hdefined]
    rfl

theorem Extends.extendedBy (h : t.Extends b d) (hbase : t.table s b = .ok base)
    (htb : t.table s d = .ok tb) : base.ExtendedBy tb where
  written_eq := (Valuation.written_table htb).trans (Valuation.written_table hbase).symm
  get_eq c hdefined := by
    have hc : c ∈ s.candidates := by
      rw [← Valuation.written_table hbase]
      by_contra hc
      rw [Table.get_eq_unset hc] at hdefined
      cases hdefined
    have hvalue : t.value s d c = .ok (tb.get c) := Valuation.value_eq_get htb hc
    rw [h.value_eq hbase hc hdefined] at hvalue
    exact (Except.ok.inj hvalue).symm

/-- If a node at the end of a chain has run, so have all before it, and its table extends theirs. -/
theorem Finished.extendedBy_of_chain (he : t.Finished s e) {ds : List NodeId}
    (hchain : List.IsChain t.Extends (b :: ds)) (hd : d ∈ ds) (hneeded : t.Needed d) :
    t.Needed b ∧ ∀ base tb, t.table s b = .ok base → t.table s d = .ok tb →
      base.ExtendedBy tb := by
  induction ds generalizing b with
  | nil => cases hd
  | cons d' ds ih =>
    obtain ⟨hextends, hchain⟩ := List.isChain_cons_cons.mp hchain
    rcases List.mem_cons.mp hd with rfl | hd
    · exact ⟨hneeded.input hextends.mem_inputs, fun base tb => hextends.extendedBy⟩
    · obtain ⟨hneeded', hextended⟩ := ih hchain hd
      refine ⟨hneeded'.input hextends.mem_inputs, fun base tb hbase htb => ?_⟩
      obtain ⟨tb', -, htb'⟩ := he.exists_table d' hneeded'
      exact (hextends.extendedBy hbase htb').trans (hextended tb' tb htb' htb)

/-! ## Other heuristics -/

end Tree

/-- What a node gives follows from what its inputs give to the candidate and from their tables. -/
theorem Node.valueFrom_congr {n : Node} {s : CandidateSpace} {ids : List NodeId}
    {v v' : NodeId → Valuation} {c : Candidate} (hvalue : ∀ i ∈ ids, (v' i).value c = (v i).value c)
    (htable : ∀ i ∈ ids, (v' i).table s = (v i).table s) :
    n.valueFrom s (ids.map v') c = n.valueFrom s (ids.map v) c := by
  have hvalues : (ids.map v').mapM (fun u => u.value c) = (ids.map v).mapM fun u => u.value c := by
    rw [List.mapM_map, List.mapM_map]
    exact Fallible.mapM_congr hvalue
  have htables : (ids.map v').mapM (fun u => u.table s) = (ids.map v).mapM fun u => u.table s := by
    rw [List.mapM_map, List.mapM_map]
    exact Fallible.mapM_congr htable
  cases hk : n.kind with
  | inner a _ => simp only [valueFrom, hk, hvalues]
  | leaf h _ =>
    cases ids with
    | nil => rfl
    | cons i ids =>
      rw [List.map_cons, List.map_cons] at htables ⊢
      cases hkind : h.kind with
      | standalone => simp only [valueFrom, hk, hkind]
      | dependent => simp only [valueFrom, hk, hkind, hvalue i List.mem_cons_self, htables]

namespace Tree

variable {t t' : Tree} {s : CandidateSpace} {base d id : NodeId} {dependencies : List NodeId}
  {h h' : Heuristic} {b : Board} {done ids : List NodeId} {c : Candidate}

/-- A tree is another one but for the heuristic of a single dependent leaf. How the nodes have been
sorted may differ too. -/
structure Replaces (t t' : Tree) (d : NodeId) (dependencies : List NodeId) (h h' : Heuristic) :
    Prop where
  name_eq : t'.name = t.name
  root_eq : t'.root = t.root
  kind_eq : h.kind = .dependent
  kind_eq' : h'.kind = .dependent
  nodes_eq : ∃ label, t.nodes[d]? = some ⟨label, .leaf h dependencies⟩ ∧
    t'.nodes = t.nodes.set d ⟨label, .leaf h' dependencies⟩

variable (t s) in
/-- Two heuristics of a leaf score alike what the base leaves open, given the tables that the
dependencies have in a run. On what the base defines they may differ in any way. -/
def AgreeWhereOpen (dependencies : List NodeId) (h h' : Heuristic) : Prop :=
  ∀ tables, List.Forall₂ (fun i tb => t.table s i = .ok tb) dependencies tables →
    ∀ base ∈ tables.head?, ∀ c ∈ s.candidates, (base.get c).isDefined = false →
      h'.score c { Context.ofModels s.architecture s.code with dependencies := tables } =
        h.score c { Context.ofModels s.architecture s.code with dependencies := tables }

/-- A leaf gives the same with either heuristic: where the base defines the candidate neither is
asked, and elsewhere they agree. -/
theorem AgreeWhereOpen.valueFrom_eq (hagree : t.AgreeWhereOpen s dependencies h h')
    (hkind : h.kind = .dependent) (hkind' : h'.kind = .dependent) (hne : dependencies ≠ [])
    (hc : c ∈ s.candidates) (label : String) :
    Node.valueFrom ⟨label, .leaf h' dependencies⟩ s (dependencies.map (t.valuation s)) c =
      Node.valueFrom ⟨label, .leaf h dependencies⟩ s (dependencies.map (t.valuation s)) c := by
  obtain ⟨i, rest, rfl⟩ := List.exists_cons_of_ne_nil hne
  have hread : ((i :: rest).map (t.valuation s)).mapM (fun v => v.table s) =
      (i :: rest).mapM (t.table s) := List.mapM_map
  rw [List.map_cons] at hread ⊢
  simp only [Node.valueFrom, hkind, hkind', hread]
  cases hvalue : (t.valuation s i).value c with
  | error e => rfl
  | ok inherited =>
    show (if inherited.isDefined = true then _ else _) = if inherited.isDefined = true then _ else _
    cases hdefined : inherited.isDefined with
    | true => rfl
    | false =>
      -- Only here are the heuristics asked, and only if the dependencies have tables.
      cases hm : (i :: rest).mapM (t.table s) with
      | error e => rfl
      | ok tables =>
        have htables := Fallible.mapM_eq_ok_iff.mp hm
        obtain ⟨base, tables, hbase, -, rfl⟩ := List.forall₂_cons_left_iff.mp htables
        have hget : (t.valuation s i).value c = .ok (base.get c) :=
          Valuation.value_eq_get hbase hc
        obtain rfl : inherited = base.get c := Except.ok.inj (hvalue.symm.trans hget)
        exact hagree _ htables base rfl c hc hdefined

namespace Replaces

variable (hr : t.Replaces t' d dependencies h h')

include hr

/-- Nodes with the same number are equal, or they are the leaf and its replacement. -/
theorem getElem?_nodes (id : NodeId) : t'.nodes[id]? = t.nodes[id]? ∨ ∃ label,
    id = d ∧ t.nodes[id]? = some ⟨label, .leaf h dependencies⟩ ∧
      t'.nodes[id]? = some ⟨label, .leaf h' dependencies⟩ := by
  obtain ⟨label, hd, hnodes⟩ := hr.nodes_eq
  rcases eq_or_ne d id with rfl | hne
  · refine .inr ⟨label, rfl, hd, ?_⟩
    rw [hnodes, List.getElem?_set_self (List.getElem?_eq_some_iff.mp hd).1]
  · exact .inl (by rw [hnodes, List.getElem?_set_ne hne])

theorem inputs_eq : t'.inputs = t.inputs := by
  funext id
  rcases hr.getElem?_nodes id with heq | ⟨label, -, hn, hn'⟩
  · rw [inputs, inputs, Node.inputsIn, Node.inputsIn, heq]
  · rw [Tree.inputs_eq hn, Tree.inputs_eq hn']
    rfl

theorem labelIn_eq (id : NodeId) : Node.labelIn t'.nodes id = Node.labelIn t.nodes id := by
  rcases hr.getElem?_nodes id with heq | ⟨label, -, hn, hn'⟩
  · rw [Node.labelIn, Node.labelIn, heq]
  · rw [label_eq hn, label_eq hn']

theorem waves_eq : t'.waves = t.waves := waves_congr hr.inputs_eq hr.root_eq

theorem outcome_eq (b : Board) : t'.outcome s b = t.outcome s b := by
  rw [outcome, outcome, node, node, hr.root_eq, hr.name_eq]
  rcases hr.getElem?_nodes t.root with heq | ⟨label, -, hn, hn'⟩
  · rw [heq]
  · rw [hn, hn']
    rfl

variable (hagree : t.AgreeWhereOpen s dependencies h h')

include hagree

/-- No node gives anything else to any candidate. By induction over the inputs, the inputs of a node
have the same tables in both trees, and the replaced leaf gives the same as the leaf. -/
theorem value_eq (id : NodeId) (hc : c ∈ s.candidates) : t'.value s id c = t.value s id c := by
  induction hrank : t.rank id using Nat.strong_induction_on generalizing id c with
  | _ k ih =>
    have hvaluation : ∀ n, t.nodes[id]? = some n → ∀ m : Node,
        m.valueFrom s (n.inputs.map (t'.valuation s)) c =
          m.valueFrom s (n.inputs.map (t.valuation s)) c := by
      intro n hn m
      have hbelow : ∀ i ∈ n.inputs, ∀ c ∈ s.candidates, t'.value s i c = t.value s i c :=
        fun i hi c hc => ih _ (hrank ▸ rank_lt hn hi) i hc rfl
      refine Node.valueFrom_congr (fun i hi => hbelow i hi c hc) fun i hi => ?_
      rw [Valuation.table, Valuation.table, valuation, valuation, hr.labelIn_eq,
        Fallible.mapM_congr (hbelow i hi)]
    rcases hr.getElem?_nodes id with heq | ⟨label, -, hn, hn'⟩
    · cases hn : t.nodes[id]? with
      | none =>
        rw [Tree.value.eq_def, heq, Tree.value.eq_def, hn]
        simp only [hr.name_eq]
      | some n =>
        rw [Tree.value_eq (heq.trans hn), Tree.value_eq hn, hvaluation n hn]
    · rw [Tree.value_eq hn', Tree.value_eq hn]
      refine (hvaluation _ hn _).trans (hagree.valueFrom_eq hr.kind_eq hr.kind_eq' ?_ hc label)
      exact (admissible hn).mp hr.kind_eq

theorem table_eq (id : NodeId) : t'.table s id = t.table s id := by
  rw [table, table, Valuation.table, Valuation.table, valuation, valuation, hr.labelIn_eq,
    Fallible.mapM_congr fun c hc => hr.value_eq hagree id hc]

theorem filled_iff : t'.Filled s done b ↔ t.Filled s done b := by
  constructor
  · intro hf
    exact ⟨hf.ids, fun e he => hr.table_eq hagree e.1 ▸ hf.table_eq e he⟩
  · intro hf
    exact ⟨hf.ids, fun e he => (hr.table_eq hagree e.1).trans (hf.table_eq e he)⟩

theorem pass_eq (hf : t.Filled s done b) (hid : t.Needed id) (hnew : id ∉ done)
    (hin : ∀ i ∈ t.inputs id, i ∈ done) (cancelled : Bool) :
    t'.pass s cancelled id b = t.pass s cancelled id b := by
  obtain ⟨n, hn⟩ := hid.exists_node
  have hn' : ∃ n', t'.nodes[id]? = some n' ∧ n'.label = n.label := by
    rcases hr.getElem?_nodes id with heq | ⟨label, -, hm, hm'⟩
    · exact ⟨n, heq.trans hn, rfl⟩
    · obtain rfl : _ = n := Option.some.inj (hm.symm.trans hn)
      exact ⟨_, hm', rfl⟩
  obtain ⟨n', hn', hlabel⟩ := hn'
  have hin' : ∀ i ∈ n'.inputs, i ∈ done := by
    rw [← Tree.inputs_eq hn', hr.inputs_eq]
    exact hin
  rw [Tree.inputs_eq hn] at hin
  rw [Tree.pass_eq ((hr.filled_iff hagree).mpr hf) hn' hnew hin', Tree.pass_eq hf hn hnew hin,
    hlabel, hr.table_eq hagree]

/-- Passes over the nodes that are left do not differ, whatever happens between them. -/
theorem passes_eq {m : Type → Type} [Monad m] (isCancelled : m Bool)
    (hl : Schedule.Legal t.inputs done ids) (hids : ∀ id ∈ ids, t.Needed id)
    (hf : t.Filled s done b) : t'.passes s isCancelled ids b = t.passes s isCancelled ids b := by
  induction ids generalizing done b with
  | nil => rfl
  | cons id ids ih =>
    obtain ⟨hnew, hin, hl⟩ := hl
    obtain ⟨hid, hids⟩ := List.forall_mem_cons.mp hids
    rw [passes, passes]
    refine congrArg (isCancelled >>= ·) (funext fun cancelled => ?_)
    have hpass : Fallible.Ends (t.Filled s (done ++ [id])) (t.Raised s True)
        (t.pass s cancelled id b) := pass_spec (fun _ => trivial) hf hid hnew hin
    rw [hr.pass_eq hagree hf hid hnew hin]
    cases hp : t.pass s cancelled id b with
    | error e => rfl
    | ok next => exact ih hl hids (hpass.of_eq_ok hp)

/-- Runs do not differ, in whichever order each wave is taken and whenever they are cancelled. -/
theorem runInTurns_eq {m : Type → Type} [Monad m]
    (isCancelled : m Bool) {w : t.Turns} {w' : t'.Turns} (hw : w'.ids = w.ids) :
    t'.runInTurns isCancelled s w' = t.runInTurns isCancelled s w := by
  rw [runInTurns, runInTurns, hw, hr.passes_eq hagree isCancelled w.legal
    (fun id hid => w.mem_iff.mp hid) (filled_empty t s)]
  simp only [hr.outcome_eq]

end Replaces

/-- Dependent nodes only extend. Along a chain of them, each reading the one before it first, the
table of every node has the confidences of the base where that defines them, and links the units
that the base links, in their order. And of any such node the heuristic may be replaced by another
dependent one that differs from it, in values or in errors, only on candidates that its own base
defines: the waves stay as they are, and no run goes or ends otherwise. -/
theorem dependents_only_extend {ds : List NodeId} (hchain : List.IsChain t.Extends (base :: ds))
    (hd : d ∈ ds) :
    (∀ (w : t.Turns) (ρ : Type) (isCancelled : StateM ρ Bool) (st : ρ) (e : Evaluation)
        (table : Table),
      ((t.runInTurns isCancelled s w).run st).1 = .ok e → e.board.table? d = some table →
        ∃ baseTable, e.board.table? base = some baseTable ∧
          (∀ c, (baseTable.get c).isDefined = true → table.get c = baseTable.get c) ∧
          ∀ itemId, (baseTable.linkedUnits itemId).Sublist (table.linkedUnits itemId)) ∧
    ∀ (t' : Tree) (dependencies : List NodeId) (h h' : Heuristic),
      t.Replaces t' d dependencies h h' → t.AgreeWhereOpen s dependencies h h' →
        t'.waves = t.waves ∧
        ∀ (w : t.Turns) (w' : t'.Turns) (m : Type → Type) [Monad m] (isCancelled : m Bool),
          w'.ids = w.ids → t'.runInTurns isCancelled s w' = t.runInTurns isCancelled s w := by
  refine ⟨fun w ρ isCancelled st e table hrun hboard => ?_,
    fun t' dependencies h h' hr hagree => ?_⟩
  · have he := finished_of_run_eq_ok w hrun
    have houtcome := (runInTurns_spec w isCancelled st).of_eq_ok hrun
    have hneeded : t.Needed d := (houtcome.isComplete_iff d).mp (by
      rw [Board.isComplete, hboard, Option.isSome_some])
    obtain ⟨hbase, hextended⟩ := he.extendedBy_of_chain hchain hd hneeded
    obtain ⟨baseTable, hbaseBoard, hbaseTable⟩ := he.exists_table base hbase
    obtain ⟨table', htable', htable⟩ := he.exists_table d hneeded
    obtain rfl : table' = table := Option.some.inj (htable'.symm.trans hboard)
    have hext := hextended baseTable table' hbaseTable htable
    have hnodup : baseTable.written.Nodup :=
      Valuation.written_table hbaseTable ▸ s.nodup_candidates
    exact ⟨baseTable, hbaseBoard, hext.get_eq, hext.linkedUnits_sublist hnodup⟩
  · exact ⟨hr.waves_eq, fun w w' m _ isCancelled hw => hr.runInTurns_eq hagree isCancelled hw⟩

end Tree

/-! ## A small example -/

namespace OrderDesk

/-- Names, companions of what they link, and units that inherit from any of these. -/
def chained (last : Heuristic) : Draft where
  name := "chained"
  nodes :=
    [⟨"names", .leaf (.byName .component Settings.default.preprocessor) []⟩,
      ⟨"companions", .leaf (.byCompanions Settings.default.commonWords) [0]⟩,
      ⟨"heirs", .leaf last [1]⟩]

/-- Inheritance, except that candidates with a base are refused. -/
def refusing : Heuristic where
  id := Heuristic.byInheritance.id
  kind := .dependent
  score c k := do
    let base ← k.base
    if (base.get c).isDefined then .error .noValue
    Inheritance.score c k

theorem agreeWhereOpen_refusing (t : Tree) (s : CandidateSpace) (base : NodeId) :
    t.AgreeWhereOpen s [base] .byInheritance refusing := by
  intro tables htables tb htb c _ hopen
  obtain ⟨rest, rfl⟩ := List.head?_eq_some_iff.mp htb
  show (if (tb.get c).isDefined = true then _ else _) = _
  rw [if_neg (Bool.eq_false_iff.mp hopen)]
  rfl

end OrderDesk

open OrderDesk in
/-- The component is linked to its unit by name, and by the last node to the unit that inherits from
that one. A heuristic that refuses what is already linked gives the same. -/
theorem Tree.dependents_only_extend_orderDesk : ∃ t t' e baseTable table,
    (chained .byInheritance).build 2 = .ok t ∧ (chained refusing).build 2 = .ok t' ∧
    t.run ⟨architecture, code⟩ false = .ok e ∧
    e.board.table? 0 = some baseTable ∧ e.board.table? 2 = some table ∧
    (baseTable.get ⟨orders, orderUnit⟩).isDefined = true ∧
    table.get ⟨orders, orderUnit⟩ = baseTable.get ⟨orders, orderUnit⟩ ∧
    (baseTable.linkedUnits orders.id).Sublist (table.linkedUnits orders.id) ∧
    t'.run ⟨architecture, code⟩ false = .ok e := by
  obtain ⟨e, he, hboard⟩ := Fallible.exists_of_any_toOption
    (x := (chained .byInheritance).build 2 >>= fun t => t.run ⟨architecture, code⟩ false)
    (p := fun e => (e.board.table? 2).isSome && (e.board.table? 0).any fun tb =>
      (tb.get ⟨orders, orderUnit⟩).isDefined)
    (by decide +kernel)
  obtain ⟨t', ht', -⟩ := Fallible.exists_of_any_toOption (x := (chained refusing).build 2)
    (p := fun _ => true) (by decide +kernel)
  obtain ⟨t, ht, hrun⟩ := Fallible.bind_eq_ok_iff.mp he
  obtain ⟨-, hname, hnodes, hroot⟩ := ((chained .byInheritance).build_ends 2).of_eq_ok ht
  obtain ⟨-, hname', hnodes', hroot'⟩ := ((chained refusing).build_ends 2).of_eq_ok ht'
  obtain ⟨hsome, hdefined⟩ := Bool.and_eq_true_iff.mp hboard
  obtain ⟨table, htable⟩ := Option.isSome_iff_exists.mp hsome
  have hcompanions : t.Extends 0 1 := ⟨_, congrArg (·[1]?) hnodes, rfl, rfl⟩
  have hheirs : t.Extends 1 2 := ⟨_, congrArg (·[2]?) hnodes, rfl, rfl⟩
  have hchain : List.IsChain t.Extends [0, 1, 2] :=
    .cons_cons hcompanions (.cons_cons hheirs (.singleton 2))
  have hreplaces : t.Replaces t' 2 [1] .byInheritance refusing :=
    { name_eq := hname'.trans hname.symm
      root_eq := hroot'.trans hroot.symm
      kind_eq := rfl
      kind_eq' := rfl
      nodes_eq := ⟨"heirs", by rw [hnodes]; rfl, by rw [hnodes, hnodes']; rfl⟩ }
  obtain ⟨hextends, hsame⟩ := Tree.dependents_only_extend (s := ⟨architecture, code⟩) hchain
    (d := 2) (by decide)
  obtain ⟨baseTable, hbase, hget, hlinked⟩ := hextends t.listedTurns Unit (pure false) () e table
    ((Tree.run_runInTurns_pure false t.listedTurns).trans hrun) htable
  rw [hbase, Option.any_some] at hdefined
  obtain ⟨hwaves, hruns⟩ := hsame t' [1] .byInheritance refusing hreplaces
    (agreeWhereOpen_refusing t _ 1)
  have hrun' := hruns t.listedTurns t'.listedTurns Id (pure false) (congrArg List.flatten hwaves)
  exact ⟨t, t', e, baseTable, table, ht, ht', hrun, hbase, htable, hdefined, hget _ hdefined,
    hlinked _, hrun'.trans hrun⟩

end TraceRecovery
