import Patchbay.Proofs.Ron.Records

/-!
# Plain data is read back

The compact text of values, bindings, slots, node types and wires is read back to the same data, bit
for bit but for what is no number (`ofText?_toText`).
-/

namespace Patchbay.Ron

/-! ## Words -/

theorem reads_slotType (t : SlotType) : Reads slotType.read (slotType.write t) t := by
  cases t <;> exact .bare (by decide) rfl

theorem reads_nodeKind (k : NodeKind) : Reads nodeKind.read (nodeKind.write k) k := by
  cases k <;> exact .bare (by decide) rfl

theorem reads_nodeCategory (c : NodeCategory) :
    Reads nodeCategory.read (nodeCategory.write c) c := by
  cases c <;> exact .bare (by decide) rfl

/-! ## Values, identifiers and bindings -/

theorem reads_value (v : Value) : Reads value.read (value.write v) v.standard := by
  cases v with
  | unset => exact .bare (by decide) rfl
  | bool b => exact .holding (by decide) rfl rfl ((Reads.bool b).map Value.bool)
  | number x => exact .holding (by decide) rfl rfl ((Reads.double x).map Value.number)
  | text s => exact .holding (by decide) rfl rfl ((Reads.string s).map Value.text)

theorem reads_nodeId (id : NodeId) : Reads nodeId.read (nodeId.write id) id := by
  have htext : NodeId.ofChars? id.toText.toList = some id := by
    rw [NodeId.toText, String.toList_ofList]
    exact NodeId.ofChars?_toChars id
  have hread : Reads (.mapOption (fun s => NodeId.ofChars? s.toList) .string)
      (writeString id.toText) id := (Reads.string id.toText).mapOption htext
  have hwrapped := hread.wrapped "NodeId" .none {}
  rwa [← inParentheses_eq] at hwrapped

theorem reads_binding (b : Binding) : Reads binding.read (binding.write b) b.standard := by
  cases b with
  | literal v => exact .holding (by decide) rfl rfl ((reads_value v).map Binding.literal)
  | reference id => exact .holding (by decide) rfl rfl ((reads_nodeId id).map Binding.reference)
  | unbound => exact .bare (by decide) rfl

/-! ## Records -/

theorem reads_slot (s : Slot) : Reads slot.read (slot.write s) s.standard := by
  have hchoices := Reads.option (Reads.list reads_value) s.choices
  refine Reads.writeRecord (by decide) ?_ (by simp) (by simp [Reader.Field.of])
  exact .of rfl (by decide) (Reads.string s.label) <|
    .of rfl (by decide) (reads_slotType s.type) <|
    .of rfl (by decide) hchoices .nil

theorem reads_nodeType (t : NodeType) : Reads nodeType.read (nodeType.write t) t.standard := by
  have hinputs := Reads.list reads_slot t.inputs
  refine Reads.writeRecord (by decide) ?_ (by simp) (by simp [Reader.Field.of])
  exact .of rfl (by decide) (Reads.string t.id) <|
    .of rfl (by decide) (reads_nodeKind t.kind) <|
    .of rfl (by decide) (Reads.string t.name) <|
    .of rfl (by decide) (reads_nodeCategory t.category) <|
    .of rfl (by decide) (Reads.string t.description) <|
    .of rfl (by decide) hinputs .nil

theorem reads_wire (source target : NodeId) (input : UInt64) :
    Reads wire.read (wire.write ⟨source, target, input.toNat⟩) ⟨source, target, input.toNat⟩ := by
  refine Reads.writeRecord (by decide) ?_ (by simp) (by simp [Reader.Field.of])
  exact .of rfl (by decide) (reads_nodeId source) <|
    .of rfl (by decide) (reads_nodeId target) <|
    .of rfl (by decide) (Reads.index input.toNat_lt) .nil

/-! ## Texts -/

theorem Form.ofText?_of_reads {α : Type} {f : Form α} {a b : α} (h : Reads f.read (f.write a) b) :
    f.ofText? (f.toText a) = some b := by
  have hread := h.document? .none .none
  rw [show Blanks.none.chars = [] from rfl, List.nil_append, List.append_nil] at hread
  rw [Form.ofText?, Form.toText, String.toList_ofList]
  exact hread

/--
All plain data is read back from its compact text. The input of a wire is counted by a machine word.
-/
theorem plainData_ofText?_toText :
    (∀ v : Value, value.ofText? (value.toText v) = some v.standard) ∧
      (∀ b : Binding, binding.ofText? (binding.toText b) = some b.standard) ∧
      (∀ s : Slot, slot.ofText? (slot.toText s) = some s.standard) ∧
      (∀ t : NodeType, nodeType.ofText? (nodeType.toText t) = some t.standard) ∧
      ∀ (source target : NodeId) (input : UInt64),
        wire.ofText? (wire.toText ⟨source, target, input.toNat⟩) =
          some ⟨source, target, input.toNat⟩ :=
  ⟨fun v => Form.ofText?_of_reads (reads_value v),
    fun b => Form.ofText?_of_reads (reads_binding b),
    fun s => Form.ofText?_of_reads (reads_slot s),
    fun t => Form.ofText?_of_reads (reads_nodeType t),
    fun source target input => Form.ofText?_of_reads (reads_wire source target input)⟩

end Patchbay.Ron
