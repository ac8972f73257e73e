import TraceRecovery.Model.Document
import TraceRecovery.Proofs.Json.RoundTrip

/-!
# Reading back models

An item, a data type, a package or a unit is read back from what is written for it
(`Item.ofJson?_toJson`, `CodeUnit.ofJson?_toJson`), and so are the documents that list them
(`Architecture.ofText_documentOf`, `Code.ofText_documentOf`). The members of a record have different
keys, so that looking a field up finds what was written for it (`Json.fields?_record`); a member is
left out only if its value is the default of its field.
-/

namespace TraceRecovery

/-! ## Records -/

namespace Json

variable {ms : List (String × Json)}

/-- If the keys of a record are different, at most one member has a given key. -/
theorem member?_keyed (hkeys : (ms.map Prod.fst).Nodup) (key : String) :
    member? (keyed ms) key = some (ms.lookup key) := by
  induction ms with
  | nil => rfl
  | cons m ms ih =>
    obtain ⟨k, v⟩ := m
    obtain ⟨hnotMem, hrest⟩ := List.nodup_cons.mp hkeys
    by_cases hk : k = key
    · subst hk
      have hnone : ((keyed ms).filter fun m => m.1 == some k) = [] := by
        simp only [keyed, List.filter_eq_nil_iff, List.mem_map, beq_iff_eq]
        rintro _ ⟨m, hm, rfl⟩ heq
        exact hnotMem (List.mem_map.mpr ⟨m, hm, Option.some.inj heq⟩)
      simp [member?, hnone]
    · have hlookup : List.lookup key ((k, v) :: ms) = ms.lookup key := by
        rw [List.lookup_cons, beq_false_of_ne (Ne.symm hk)]
      rw [hlookup, ← ih hrest, keyed_cons, member?, member?, List.filter_cons_of_neg (by simpa)]

/-- If the keys of a record are different, its fields are found by their names. -/
theorem fields?_record (hkeys : (ms.map Prod.fst).Nodup) (names : List String) :
    fields? names (.record ms) = some (names.map fun name => ms.lookup name) := by
  have hsome : (keyed ms).all (fun m => m.1.isSome) = true := by simp [keyed]
  have hmember : member? (keyed ms) = fun name => pure (ms.lookup name) :=
    funext (member?_keyed hkeys)
  rw [record_eq, fields?]
  exact (if_pos hsome).trans (hmember ▸ List.mapM_pure)

theorem list?_array_map {α : Type} {read : Json → Option α} {write : α → Json}
    (h : ∀ x, read (write x) = some x) (xs : List α) :
    list? read (.array (xs.map write)) = some xs := by
  have hpure : (read ∘ write) = fun x => pure (id x) := funext h
  rw [list?, List.mapM_map, hpure, List.mapM_pure, List.map_id]
  rfl

theorem string?_text (s : String) : string? (.text s) = some s := rfl

theorem list?_texts (ss : List String) : list? string? (.texts ss) = some ss := by
  rw [texts]
  exact list?_array_map string?_text ss

theorem optional?_text (s : String) : optional? string? (.text s) = some (some s) := rfl

theorem isSound_text (s : String) : isSound (.text s) = true := rfl

theorem isSound_texts (ss : List String) : isSound (.texts ss) = true := by
  show areElementsSound (ss.map text) = true
  induction ss with
  | nil => rfl
  | cons s ss ih => simpa [areElementsSound, isSound_text] using ih

theorem depth_text (s : String) : depth (.text s) = 0 := rfl

theorem depth_texts (ss : List String) : depth (.texts ss) = 1 := by
  show depthOfElements (ss.map text) + 1 = 1
  induction ss with
  | nil => rfl
  | cons s ss ih => simpa [depthOfElements, depth_text] using ih

theorem areMembersSound_keyed_iff :
    areMembersSound (keyed ms) = true ↔ ∀ m ∈ ms, isSound m.2 = true := by
  induction ms with
  | nil => simp [areMembersSound]
  | cons m ms ih => simp [areMembersSound, ih]

theorem depthOfMembers_keyed_le_iff {n : Nat} :
    depthOfMembers (keyed ms) ≤ n ↔ ∀ m ∈ ms, depth m.2 ≤ n := by
  induction ms with
  | nil => simp [depthOfMembers]
  | cons m ms ih => rw [keyed_cons, depthOfMembers, Nat.max_le, ih, List.forall_mem_cons]

end Json

open Json (keyed fields?_record member?_keyed string?_text optional?_text list?_texts)
open Json.Fields (required withDefault)

/-! ## Code -/

theorem CodeKind.ofJson?_text (k : CodeKind) : ofJson? (.text k.name) = some k :=
  ofName?_name k

theorem DataType.ofJson?_toJson (t : DataType) : ofJson? t.toJson = some t := by
  obtain ⟨name, kind, supertypes⟩ := t
  cases supertypes <;>
  · rw [ofJson?, toJson, fields?_record (by simp)]
    simp [required, withDefault, CodeKind.ofJson?_text, string?_text, list?_texts, List.lookup_cons]

theorem DataType.textual_toJson (t : DataType) : Json.Textual t.toJson := by
  refine .record ?_
  obtain ⟨name, kind, supertypes⟩ := t
  cases supertypes <;> simp [Json.Textual.text, Json.textual_texts]

theorem Package.ofJson?_toJson (p : Package) : ofJson? p.toJson = some p := by
  rw [ofJson?, toJson, fields?_record (by simp)]
  simp [required, string?_text, List.lookup_cons]

theorem Package.textual_toJson (p : Package) : Json.Textual p.toJson :=
  .record (by simp [Json.Textual.text])

theorem CodeUnit.ofJson?_toJson (u : CodeUnit) : ofJson? u.toJson = some u := by
  obtain ⟨id, name, path, package, dataTypes⟩ := u
  have htypes := Json.list?_array_map DataType.ofJson?_toJson dataTypes
  cases package <;>
  · rw [ofJson?, toJson, fields?_record (by simp)]
    simp [required, withDefault, string?_text, optional?_text, list?_texts, htypes,
      List.lookup_cons]

theorem CodeUnit.textual_toJson (u : CodeUnit) : Json.Textual u.toJson := by
  refine .record ?_
  obtain ⟨id, name, path, package, dataTypes⟩ := u
  have htypes := Json.textual_array_map DataType.textual_toJson dataTypes
  cases package <;> simp [Json.Textual.text, Json.textual_texts, htypes]

/-! ## Items -/

namespace Item

/-- The members that describe an item. -/
def members (item : Item) : List (String × Json) :=
  [("id", .text item.id), ("name", .text item.name)] ++ kindMembers item.kind

theorem nodup_members (item : Item) : (item.members.map Prod.fst).Nodup := by
  obtain ⟨id, name, kind⟩ := item
  rcases kind with ⟨_ | type⟩ | ⟨_ | ⟨s, ss⟩⟩ <;> simp [members, kindMembers]

theorem ofMembers?_members (item : Item) :
    ItemKind.ofMembers? (keyed item.members) = some item.kind := by
  have hmember := member?_keyed item.nodup_members
  have hcomponent : ItemKind.tag? (.text "component") = some .component := rfl
  have hinterface : ItemKind.tag? (.text "interface") = some .interface := rfl
  simp only [ItemKind.ofMembers?, hmember]
  obtain ⟨id, name, kind⟩ := item
  rcases kind with ⟨_ | type⟩ | ⟨_ | ⟨s, ss⟩⟩ <;>
    simp [members, kindMembers, hcomponent, hinterface, List.lookup_cons, optional?_text,
      list?_texts]

theorem text_or_texts_of_mem_members {item : Item} {m : String × Json} (hm : m ∈ item.members) :
    (∃ s, m.2 = .text s) ∨ ∃ ss, m.2 = .texts ss := by
  obtain ⟨id, name, kind⟩ := item
  rcases kind with ⟨_ | type⟩ | ⟨_ | ⟨s, ss⟩⟩ <;>
  · simp only [members, kindMembers, List.cons_append, List.nil_append, List.mem_cons,
      List.not_mem_nil, or_false] at hm
    grind

theorem isSound_of_mem_members {item : Item} {m : String × Json} (hm : m ∈ item.members) :
    Json.isSound m.2 = true := by
  rcases text_or_texts_of_mem_members hm with ⟨s, hs⟩ | ⟨ss, hss⟩
  · rw [hs, Json.isSound_text]
  · rw [hss, Json.isSound_texts]

theorem depth_le_of_mem_members {item : Item} {m : String × Json} (hm : m ∈ item.members) :
    Json.depth m.2 ≤ 1 := by
  rcases text_or_texts_of_mem_members hm with ⟨s, hs⟩ | ⟨ss, hss⟩
  · exact hs ▸ Nat.zero_le 1
  · exact hss ▸ Nat.le_of_eq (Json.depth_texts ss)

theorem textual_toJson (item : Item) : Json.Textual item.toJson :=
  .record fun m hm => by
    rcases text_or_texts_of_mem_members hm with ⟨s, hs⟩ | ⟨ss, hss⟩
    · exact hs ▸ .text s
    · exact hss ▸ Json.textual_texts ss

/-- An item is read back wherever one level of nesting is left for its members. -/
theorem ofJson?_toJson {room : Nat} (hroom : 1 ≤ room) (item : Item) :
    ofJson? room item.toJson = some item := by
  have hmember := member?_keyed item.nodup_members
  have hsound := Json.areMembersSound_keyed_iff.mpr fun _ => item.isSound_of_mem_members
  have hdepth := Json.depthOfMembers_keyed_le_iff.mpr fun _ hm =>
    Nat.le_trans (item.depth_le_of_mem_members hm) hroom
  show ofJson? room (.object (keyed item.members)) = some item
  simp only [ofJson?, hmember, ofMembers?_members, hsound, hdepth]
  simp [members, string?_text, List.lookup_cons]

example : (Item.component "a\"b" "\\\u0001é").toJson.toCompact =
    "\x7b\"id\":\"a\\\"b\",\"name\":\"\\\\\\u0001é\",\"kind\":\"component\"\x7d" := by
  decide

end Item

/-! ## Documents -/

namespace Architecture

/-- The document that lists some items. -/
def documentOf (items : List Item) : Json := .record [("items", .array (items.map Item.toJson))]

theorem textual_documentOf (items : List Item) : Json.Textual (documentOf items) :=
  .record (by simp [Json.textual_array_map Item.textual_toJson])

theorem itemsOfJson?_documentOf (items : List Item) :
    itemsOfJson? (documentOf items) = some items := by
  have hitems := Json.list?_array_map (Item.ofJson?_toJson (by decide : 1 ≤ nestingLimit - 2)) items
  rw [itemsOfJson?, documentOf, fields?_record (by simp)]
  simp [required, List.lookup_cons, hitems]

/-- The text of a document of items is read as an architecture with exactly these items, if there is
one. -/
theorem ofText_documentOf (items : List Item) :
    ofText (documentOf items).toCompact = ofItems items := by
  simp only [ofText, (textual_documentOf items).ofText?_toCompact, Option.bind_eq_bind,
    Option.bind_some, itemsOfJson?_documentOf]

end Architecture

namespace Code

/-- The document that lists some units and packages. -/
def documentOf (units : List CodeUnit) (packages : List Package) : Json :=
  .record [("units", .array (units.map CodeUnit.toJson)),
    ("packages", .array (packages.map Package.toJson))]

variable {units : List CodeUnit} {packages : List Package}

theorem textual_documentOf : Json.Textual (documentOf units packages) :=
  .record (by simp [Json.textual_array_map CodeUnit.textual_toJson,
    Json.textual_array_map Package.textual_toJson])

theorem partsOfJson?_documentOf :
    partsOfJson? (documentOf units packages) = some (units, packages) := by
  have hunits := Json.list?_array_map CodeUnit.ofJson?_toJson units
  have hpackages := Json.list?_array_map Package.ofJson?_toJson packages
  rw [partsOfJson?, documentOf, fields?_record (by simp)]
  simp [required, withDefault, List.lookup_cons, hunits, hpackages]

/-- The text of a document of units and packages is read as the code of exactly these, if there is
one. -/
theorem ofText_documentOf :
    ofText (documentOf units packages).toCompact = ofUnits units packages := by
  simp only [ofText, textual_documentOf.ofText?_toCompact, Option.bind_eq_bind,
    Option.bind_some, partsOfJson?_documentOf]

theorem parts_of_ofUnits_eq_ok {c : Code} (h : ofUnits units packages = .ok c) :
    c.units = units ∧ c.packages = packages := by
  unfold ofUnits at h
  split at h
  · cases h
  · cases h
    exact ⟨rfl, rfl⟩

end Code

/-- Every item and every unit is read back from its text as it was written. The text of a document
of items with different ids is read as an architecture with these items in this order, and that of
a document of units and packages that make up a code as that code. -/
theorem models_read_back :
    (∀ item : Item, Json.ofText? item.toJson.toCompact >>= Item.ofJson? nestingLimit = some item) ∧
      (∀ u : CodeUnit, Json.ofText? u.toJson.toCompact >>= CodeUnit.ofJson? = some u) ∧
      (∀ items : List Item, (items.map Item.id).Nodup →
        ∃ a, Architecture.ofText (Architecture.documentOf items).toCompact = .ok a ∧
          a.items = items) ∧
      ∀ (units : List CodeUnit) (packages : List Package) (c : Code),
        Code.ofUnits units packages = .ok c →
          Code.ofText (Code.documentOf units packages).toCompact = .ok c ∧
            c.units = units ∧ c.packages = packages := by
  refine ⟨fun item => ?_, fun u => ?_, fun items hdistinct => ?_, fun units packages c hc => ?_⟩
  · rw [item.textual_toJson.ofText?_toCompact]
    exact Item.ofJson?_toJson (by decide) item
  · rw [u.textual_toJson.ofText?_toCompact]
    exact u.ofJson?_toJson
  · rw [Architecture.ofText_documentOf]
    exact ⟨⟨items, hdistinct⟩, dif_pos hdistinct, rfl⟩
  · rw [Code.ofText_documentOf]
    exact ⟨hc, Code.parts_of_ofUnits_eq_ok hc⟩

/-- Quotes, backslashes, control characters and characters beyond ASCII. -/
theorem models_read_back_escaped :
    let items : List Item :=
      [⟨"a\"b", "\\ \n\u0001", .component (some "")⟩, ⟨"é", "😀", .interface ["f()", "\t"]⟩]
    (items.map Item.id).Nodup ∧
      ∃ a, Architecture.ofText (Architecture.documentOf items).toCompact = .ok a ∧
        a.items = items :=
  ⟨by decide, models_read_back.2.2.1 _ (by decide)⟩

end TraceRecovery
