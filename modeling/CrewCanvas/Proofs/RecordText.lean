/-
Graphs exchanged as texts.

The text of the record of a well-formed graph is read as that record, and the record as the
graph, whatever characters its ids and texts have.  Only a coordinate must be a number that
is read back from its own spelling.
-/

import CrewCanvas.Proofs.DocumentText
import CrewCanvas.Proofs.RecordRoundTrip
import CrewCanvas.Record.Json

namespace CrewCanvas

open Json

/-! ### Free data -/

namespace Json

theorem insertField_last {key : String} {value : Json} {sorted : List (String × Json)}
    (below : ∀ field ∈ sorted, field.1 < key) :
    insertField key value sorted = sorted ++ [(key, value)] := by
  induction sorted with
  | nil => rfl
  | cons field rest ih =>
      have before := below field List.mem_cons_self
      have notBelow : ¬key < field.1 := String.lt_asymm before
      have different : key ≠ field.1 := by
        intro same
        exact String.lt_irrefl key (same ▸ before)
      rw [insertField, if_neg notBelow, if_neg different,
        ih (fun other member => below other (List.mem_cons_of_mem _ member)), List.cons_append]

/-- Free data whose keys ascend is read as it is. -/
theorem Decode.anyFields_ofFields {origin : Origin} {fields sorted : List (String × Json)}
    (reads : ∀ field ∈ fields, Decode.any origin (Doc.ofValue field.2) = .ok field.2)
    (ascending : (fields.map Prod.fst).Pairwise (· < ·))
    (below : ∀ field ∈ sorted, ∀ key ∈ fields.map Prod.fst, field.1 < key) :
    Decode.anyFields origin (Doc.ofFields fields) sorted = .ok (sorted ++ fields) := by
  induction fields generalizing sorted with
  | nil => rw [Doc.ofFields, Decode.anyFields, List.append_nil]
  | cons field rest ih =>
      obtain ⟨key, value⟩ := field
      rw [List.map_cons, List.pairwise_cons] at ascending
      have inserted : insertField key value sorted = sorted ++ [(key, value)] :=
        insertField_last (fun other member => below other member key List.mem_cons_self)
      have belowRest : ∀ other ∈ sorted ++ [(key, value)], ∀ later ∈ rest.map Prod.fst,
          other.1 < later := by
        intro other member later inRest
        rcases List.mem_append.mp member with old | new
        · exact below other old later (List.mem_cons_of_mem _ inRest)
        · rw [List.mem_singleton.mp new]
          exact ascending.1 later inRest
      have others := ih (fun other member => reads other (List.mem_cons_of_mem _ member))
        ascending.2 belowRest
      have first : Decode.any origin (Doc.ofValue value) = .ok value :=
        reads (key, value) List.mem_cons_self
      rw [List.append_assoc, List.singleton_append] at others
      rw [Doc.ofFields, Decode.anyFields, first]
      simp only [bind, Except.bind, inserted]
      exact others

theorem Decode.any_record {origin inner : Origin} (entered : origin.enter = .ok inner)
    {fields : List (String × Json)}
    (reads : ∀ field ∈ fields, Decode.any inner (Doc.ofValue field.2) = .ok field.2)
    (ascending : (fields.map Prod.fst).Pairwise (· < ·)) :
    Decode.any origin (Doc.ofValue (.record fields)) = .ok (.record fields) := by
  have read : Decode.anyFields inner (Doc.ofFields fields) [] = .ok ([] ++ fields) :=
    anyFields_ofFields reads ascending (by simp)
  rw [Doc.ofValue, Decode.any, entered]
  simp only [bind, Except.bind, read]
  rfl

theorem Decode.list_map {α β : Type} {decode : Decoder β} {write : α → Json} {record : α → β}
    {room : Nat} {items : List α}
    (reads : ∀ item ∈ items, decode (.text room) (Doc.ofValue (write item)) = .ok (record item)) :
    Decode.list decode (.text (room + 1)) (Doc.ofValue (.list (items.map write))) =
      .ok (items.map record) := by
  have elements : Decode.elements decode (.text room) (Doc.ofValues (items.map write)) =
      .ok (items.map record) := by
    induction items with
    | nil => rfl
    | cons item rest ih =>
        have others := ih (fun other member => reads other (List.mem_cons_of_mem _ member))
        rw [List.map_cons, Doc.ofValues, Decode.elements, reads item List.mem_cons_self, others]
        rfl
  rw [Doc.ofValue, Decode.list, Origin.enter]
  simp only [bind, Except.bind, elements]
  rfl

end Json

theorem NodeData.any_toJson (data : NodeData) {origin inner : Origin}
    (entered : origin.enter = .ok inner) :
    Decode.any origin (Doc.ofValue data.toJson) = .ok data.toJson := by
  rw [toJson_eq_record]
  apply Decode.any_record entered
  · intro field member
    obtain ⟨text, _, same⟩ := List.mem_map.mp member
    subst same
    rw [Doc.ofValue, Decode.any]
  · cases data with
    | reroute claimed =>
        cases claimed <;> simp only [textFields, List.map_cons, List.map_nil] <;> decide
    | _ =>
        simp only [textFields, List.map_cons, List.map_nil]
        decide

/-! ### Records -/

theorem Position.decode_toJson (position : Position) {origin inner : Origin}
    (entered : origin.enter = .ok inner) :
    Position.decode origin (Doc.ofValue position.toJson) = .ok position := by
  rw [Position.toJson, Doc.ofValue_record]
  apply Shape.decode_object_bind entered (position.x, position.y, ())
  · simp [List.lookup_cons, Json.ofReal, Doc.ofValue, Decode.real]
  · simp
  · simp
  · simp

theorem NodeRecord.decode_ofNode (node : Node) {origin inner innermost : Origin}
    (entered : origin.enter = .ok inner) (deeper : inner.enter = .ok innermost) :
    NodeRecord.decode origin (Doc.ofValue (NodeRecord.ofNode node).toJson) =
      .ok (NodeRecord.ofNode node) := by
  rw [NodeRecord.toJson, Doc.ofValue_record]
  apply Shape.decode_object_bind entered
    (node.id, node.kind.name, node.position, node.data.toJson, ())
  · have position := Position.decode_toJson node.position deeper
    have data := NodeData.any_toJson node.data deeper
    simp [List.lookup_cons, NodeRecord.ofNode, position, data, Doc.ofValue]
  · simp
  · simp
  · simp

theorem EdgeRecord.decode_toJson (record : EdgeRecord) {origin inner : Origin}
    (entered : origin.enter = .ok inner) :
    EdgeRecord.decode origin (Doc.ofValue record.toJson) = .ok record := by
  obtain ⟨id, source, sourceHandle, target, targetHandle, isExecutionLine⟩ := record
  rw [EdgeRecord.toJson, Doc.ofValue_record]
  apply Shape.decode_object_bind entered
    (id, source, sourceHandle, target, targetHandle, isExecutionLine, ())
  · cases sourceHandle <;> cases targetHandle <;>
      simp [List.lookup_cons, textIfAny, textOrNone, Doc.ofValue, Decode.optional, Decode.bool,
        Except.map]
  · simp [textOrNone]
  · cases sourceHandle <;> cases targetHandle <;> simp [textIfAny]
  · cases sourceHandle <;> cases targetHandle <;> simp [textIfAny, textOrNone]

theorem GraphRecord.decode_ofGraph (graph : Graph) (room : Nat) :
    GraphRecord.decode (.text (room + 4)) (Doc.ofValue (GraphRecord.ofGraph graph).toJson) =
      .ok (GraphRecord.ofGraph graph) := by
  have nodes : Decode.list NodeRecord.decode (.text (room + 3))
      (Doc.ofValue (.list (graph.nodes.map (NodeRecord.toJson ∘ NodeRecord.ofNode)))) =
        .ok (graph.nodes.map NodeRecord.ofNode) :=
    Decode.list_map (fun node _ => NodeRecord.decode_ofNode node rfl rfl)
  have edges : Decode.list EdgeRecord.decode (.text (room + 3))
      (Doc.ofValue (.list (graph.edges.map (EdgeRecord.toJson ∘ EdgeRecord.ofEdge)))) =
        .ok (graph.edges.map EdgeRecord.ofEdge) :=
    Decode.list_map (fun edge _ => EdgeRecord.decode_toJson (EdgeRecord.ofEdge edge) rfl)
  rw [GraphRecord.toJson, Doc.ofValue_record]
  apply Shape.decode_object_bind rfl
    (graph.nodes.map NodeRecord.ofNode, graph.edges.map EdgeRecord.ofEdge, ())
  · simp [List.lookup_cons, Field.listOrEmpty, GraphRecord.ofGraph, nodes, edges]
  · simp [Field.listOrEmpty]
  · simp
  · simp [Field.listOrEmpty]

/-! ### Legible records -/

theorem Json.areLegible_iff {items : List Json} :
    AreLegible items ↔ ∀ item ∈ items, Legible item := by
  induction items with
  | nil => simp [AreLegible]
  | cons item rest ih => simp [AreLegible, ih]

theorem Json.fieldsAreLegible_iff {fields : List (String × Json)} :
    FieldsAreLegible fields ↔ ∀ field ∈ fields, Legible field.2 := by
  induction fields with
  | nil => simp [FieldsAreLegible]
  | cons field rest ih => simp [FieldsAreLegible, ih]

def Position.ReadsBack (position : Position) : Prop :=
  position.x.ReadsBack ∧ position.y.ReadsBack

theorem Position.legible_toJson {position : Position} (back : position.ReadsBack) :
    Legible position.toJson := by
  rw [Position.toJson, Legible, fieldsAreLegible_iff]
  intro field member
  rcases List.mem_pair.mp member with same | same
  · rw [same]
    exact fun _ ends => ofChars_write_real back.1 ends
  · rw [same]
    exact fun _ ends => ofChars_write_real back.2 ends

theorem NodeData.legible_toJson (data : NodeData) : Legible data.toJson := by
  rw [toJson_eq_record, Legible, fieldsAreLegible_iff]
  intro field member
  obtain ⟨text, _, same⟩ := List.mem_map.mp member
  subst same
  trivial

theorem NodeRecord.legible_toJson {node : Node} (back : node.position.ReadsBack) :
    Legible (NodeRecord.ofNode node).toJson :=
  ⟨trivial, trivial, Position.legible_toJson back, NodeData.legible_toJson node.data, trivial⟩

theorem EdgeRecord.legible_toJson (record : EdgeRecord) : Legible record.toJson := by
  obtain ⟨id, source, sourceHandle, target, targetHandle, isExecutionLine⟩ := record
  cases sourceHandle <;> cases targetHandle <;>
    simp [EdgeRecord.toJson, EdgeRecord.textIfAny, Legible, FieldsAreLegible]

theorem GraphRecord.legible_toJson {graph : Graph}
    (back : ∀ node ∈ graph.nodes, node.position.ReadsBack) :
    Legible (GraphRecord.ofGraph graph).toJson := by
  refine ⟨areLegible_iff.mpr ?_, areLegible_iff.mpr ?_, trivial⟩
  · intro item member
    simp only [GraphRecord.ofGraph, List.map_map, List.mem_map] at member
    obtain ⟨node, present, same⟩ := member
    exact same ▸ NodeRecord.legible_toJson (back node present)
  · intro item member
    obtain ⟨record, _, same⟩ := List.mem_map.mp member
    exact same ▸ EdgeRecord.legible_toJson record

/-! ### The round trip -/

/-- The text of a graph's record is read as the record, and the record as the graph. -/
theorem GraphRecord.ofText_toText {graph : Graph} (formed : graph.WellFormed)
    (back : ∀ node ∈ graph.nodes, node.position.ReadsBack) :
    ∃ record, GraphRecord.ofText (GraphRecord.ofGraph graph).toText = .ok record ∧
      record.toGraph = .ok graph ∧ graph.numEq graph = true := by
  refine ⟨GraphRecord.ofGraph graph, ?_, GraphRecord.toGraph_ofGraph formed, ?_⟩
  · rw [GraphRecord.toText, GraphRecord.ofText, indentedText,
      decodeText_write GraphRecord.decode (GraphRecord.legible_toJson back)]
    exact GraphRecord.decode_ofGraph graph 123
  · apply Graph.numEq_self
    intro position member
    obtain ⟨node, present, same⟩ := List.mem_map.mp member
    subst same
    have both := back node present
    exact ⟨isNaN_of_readsBack both.1, isNaN_of_readsBack both.2⟩

def quotedGraph : Graph where
  nodes :=
    [{ id := "\"b\"", position := ⟨⟨0x3FF8000000000000⟩, ⟨0xBFD0000000000000⟩⟩, data := .begin },
      { id := "агент\n", data := .agent { name := "a\\b\x01", role := "😀", tools := "t,\x7f" } },
      { id := "r", data := .reroute (some .execution) },
      { id := "", data := .task { name := "\"\t", expectedOutput := "\x7b\x7d" } }]
  edges :=
    [⟨"e\\", "\"b\"", some .execOut, "r", none, true⟩, ⟨"\r", "r", none, "", some .execIn, true⟩,
      ⟨"é", "агент\n", some .agentOut, "", some .agent, false⟩]

theorem quotedGraph_ofText :
    quotedGraph.WellFormed ∧ (∀ node ∈ quotedGraph.nodes, node.position.ReadsBack) ∧
      ∃ record, GraphRecord.ofText (GraphRecord.ofGraph quotedGraph).toText = .ok record ∧
        record.toGraph = .ok quotedGraph ∧ quotedGraph.numEq quotedGraph = true := by
  have formed : quotedGraph.WellFormed := by decide
  have oneAndHalf : Binary64.ReadsBack ⟨0x3FF8000000000000⟩ :=
    readsBack_of_numeral ['1', '.', '5'] ⟨false, ['1'], some ['5'], none⟩ (by decide)
      (by decide +kernel) rfl (by decide +kernel)
  have minusQuarter : Binary64.ReadsBack ⟨0xBFD0000000000000⟩ :=
    readsBack_of_numeral ['-', '0', '.', '2', '5'] ⟨true, ['0'], some ['2', '5'], none⟩ (by decide)
      (by decide +kernel) rfl (by decide +kernel)
  have zero : Binary64.zero.ReadsBack :=
    readsBack_of_numeral ['0', '.', '0'] ⟨false, ['0'], some ['0'], none⟩ (by decide)
      (by decide +kernel) rfl (by decide +kernel)
  have back : ∀ node ∈ quotedGraph.nodes, node.position.ReadsBack := by
    simp only [quotedGraph, List.forall_mem_cons]
    exact ⟨⟨oneAndHalf, minusQuarter⟩, ⟨zero, zero⟩, ⟨zero, zero⟩, ⟨zero, zero⟩, by simp⟩
  exact ⟨formed, back, GraphRecord.ofText_toText formed back⟩

end CrewCanvas
