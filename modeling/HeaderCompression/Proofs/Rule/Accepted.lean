import HeaderCompression.Proofs.Json.Yields
import HeaderCompression.Proofs.Rule.WellFormed
import HeaderCompression.Rule.Document
import Mathlib.Control.Monad.Basic

namespace HeaderCompression

open Json (RecordShape)
open Json.Reader

def Rule.WellFormed (rule : Rule) : Prop :=
  ∀ f ∈ rule.fields, f.WellFormed

def Device.WellFormed (device : Device) : Prop :=
  ∀ layer, ∀ rule ∈ device.rules layer, rule.WellFormed

/-- The device stands in a rule document that loads. -/
def Device.Accepted (device : Device) : Prop :=
  ∃ text set, RuleSet.ofText text = .ok set ∧ device ∈ set.devices

namespace Document

theorem yields_field (room : Nat) : Yields (field room) RuleField.WellFormed := by
  rw [field]
  apply yields_bind
  intro description
  split
  · exact yields_throw _
  · rename_i f hf
    exact yields_pure (FieldDescription.toField_wellFormed hf)

theorem ruleShape_keeps :
    ruleShape.Keeps (fun d => ∀ fields ∈ d.fields, ∀ f ∈ fields, f.WellFormed)
      Rule.WellFormed where
  blank := by simp [ruleShape]
  read := by
    simp only [ruleShape, List.forall_mem_cons, List.not_mem_nil, false_implies, implies_true,
      and_true]
    refine ⟨fun room d hd => ?_, fun room d hd => ?_, fun room d hd => ?_⟩
    · exact yields_bind fun _ => yields_pure hd
    · exact yields_bind fun _ => yields_pure hd
    · exact (yields_list yields_field).bind fun fields hfields =>
        yields_pure (by simpa using hfields)
  finish := by
    intro d rule hd hrule
    simp only [ruleShape, Option.bind_eq_bind, Option.bind_eq_some_iff] at hrule
    obtain ⟨id, -, fields, hfields, hrule⟩ := hrule
    cases hrule
    exact hd fields hfields

theorem yields_rule (room : Nat) : Yields (Document.rule room) Rule.WellFormed :=
  ruleShape_keeps.yields_record room

structure DeviceDraft.WellFormed (d : DeviceDraft) : Prop where
  ipv6 : ∀ rules ∈ d.ipv6Rules, ∀ rule ∈ rules, rule.WellFormed
  udp : ∀ rules ∈ d.udpRules, ∀ rule ∈ rules, rule.WellFormed
  coap : ∀ rules ∈ d.coapRules, ∀ rule ∈ rules, rule.WellFormed

theorem getD_wellFormed {rules? : Option (List Rule)}
    (h : ∀ rules ∈ rules?, ∀ rule ∈ rules, rule.WellFormed) :
    ∀ rule ∈ rules?.getD [], rule.WellFormed := by
  cases rules? with
  | none => simp
  | some rules => exact h rules rfl

theorem deviceShape_keeps :
    deviceShape.Keeps DeviceDraft.WellFormed Device.WellFormed where
  blank := ⟨by simp [deviceShape], by simp [deviceShape], by simp [deviceShape]⟩
  read := by
    simp only [deviceShape, List.forall_mem_cons, List.not_mem_nil, false_implies, implies_true,
      and_true]
    refine ⟨?id, ?mode, ?uncompressedId, ?uncompressedLength, ?address, ?ipv6, ?udp, ?coap,
      ?composites⟩ <;> intro room d hd
    case ipv6 =>
      exact (yields_list yields_rule).bind fun rules hrules =>
        yields_pure ⟨by simpa using hrules, hd.udp, hd.coap⟩
    case udp =>
      exact (yields_list yields_rule).bind fun rules hrules =>
        yields_pure ⟨hd.ipv6, by simpa using hrules, hd.coap⟩
    case coap =>
      exact (yields_list yields_rule).bind fun rules hrules =>
        yields_pure ⟨hd.ipv6, hd.udp, by simpa using hrules⟩
    all_goals exact yields_bind fun _ => yields_pure ⟨hd.ipv6, hd.udp, hd.coap⟩
  finish := by
    intro d device hd hdevice
    simp only [deviceShape, Option.bind_eq_bind, Option.bind_eq_some_iff] at hdevice
    obtain ⟨id, -, hdevice⟩ := hdevice
    cases hdevice
    intro layer
    cases layer with
    | network => exact getD_wellFormed hd.ipv6
    | transport => exact getD_wellFormed hd.udp
    | application => exact getD_wellFormed hd.coap

theorem yields_device (room : Nat) : Yields (Document.device room) Device.WellFormed :=
  deviceShape_keeps.yields_record room

theorem ruleSetShape_keeps :
    ruleSetShape.Keeps (fun d => ∀ devices ∈ d.devices, ∀ device ∈ devices, device.WellFormed)
      (fun set => ∀ device ∈ set.devices, device.WellFormed) where
  blank := by simp [ruleSetShape]
  read := by
    simp only [ruleSetShape, List.forall_mem_singleton]
    intro room d hd
    exact (yields_list yields_device).bind fun devices h => yields_pure (by simpa using h)
  finish := by
    intro d set hd hset
    simp only [ruleSetShape, Option.bind_eq_bind, Option.bind_eq_some_iff] at hset
    obtain ⟨devices, hdevices, hset⟩ := hset
    cases hset
    exact hd devices hdevices

def readChars {α : Type} (reader : Nat → RuleReader α) (chars : List Char) : Except Error α :=
  let run : Except (Json.Fault Rejection) α := do
    let (value, rest) ← (do let value ← reader maxDepth; return (value, ← next?)).run'
      ⟨chars, chars.length⟩
    match rest with
    | none => return value
    | some _ => throw .malformed
  run.mapError .document

theorem read_ofList {α : Type} (reader : Nat → RuleReader α) (chars : List Char) :
    read reader (String.ofList chars) = readChars reader chars := by
  rw [read, Json.Reader.document, Json.Source.ofString]
  rw [String.toList_ofList, String.length_ofList]
  rfl

end Document

namespace RuleSet

theorem ofText_eq_ok {text : String} {set : RuleSet} (h : ofText text = .ok set) :
    Document.read Document.ruleSet text = .ok set ∧
      ∀ finding ∈ set.findings, finding.fault? = none := by
  rw [ofText, load] at h
  split at h
  · cases h
  · rename_i set' hread
    dsimp only at h
    split at h
    · cases h
    · rename_i hcheck
      cases h
      refine ⟨hread, ?_⟩
      rw [check] at hcheck
      split at hcheck
      · rename_i hnone
        simpa using hnone
      · cases hcheck

end RuleSet

variable {device : Device} {layer : Layer} {rule : Rule} {finding : Finding} {condition : Bool}
  {fault : DeviceFault}

@[simp] theorem Finding.mem_faultIf :
    finding ∈ faultIf condition fault ↔ condition ∧ finding = .fault (.device fault) := by
  rw [faultIf]
  split <;> simp_all

namespace Device

theorem eq_of_rule_eq_error {id : Nat} {error : Error} (h : device.rule layer id = .error error) :
    error = .ruleNotFound layer id := by
  rw [rule] at h
  split at h
  · cases h
    rfl
  · cases h

theorem mem_layerFindings (hrule : rule ∈ device.rules layer)
    (h : finding ∈ rule.findings layer) : finding ∈ device.findings := by
  have hlayer : layer ∈ Layer.all := by cases layer <;> decide
  refine List.mem_append_left _ (List.mem_append_left _ (List.mem_flatMap.2 ⟨layer, hlayer, ?_⟩))
  exact List.mem_append_left _ (List.mem_flatMap.2 ⟨rule, hrule, h⟩)

namespace Accepted

theorem wellFormed (h : device.Accepted) : device.WellFormed := by
  obtain ⟨text, set, hset, hmem⟩ := h
  obtain ⟨hread, -⟩ := RuleSet.ofText_eq_ok hset
  have hyields := Document.ruleSetShape_keeps.yields_record Document.maxDepth
  exact hyields.document (mapError_eq_ok_iff.1 hread) device hmem

theorem fault?_eq_none (h : device.Accepted) (hmem : finding ∈ device.findings) :
    finding.fault? = none := by
  obtain ⟨text, set, hset, hdevice⟩ := h
  obtain ⟨-, hfindings⟩ := RuleSet.ofText_eq_ok hset
  exact hfindings finding (List.mem_flatMap.2 ⟨device, hdevice, hmem⟩)

theorem fault_not_mem (h : device.Accepted) (error : Error) : .fault error ∉ device.findings := by
  intro hmem
  cases h.fault?_eq_none hmem

theorem id_ne_zero (h : device.Accepted) (hrule : rule ∈ device.rules layer) : rule.id ≠ 0 := by
  intro hid
  apply h.fault_not_mem (.device (.reservedRuleId layer))
  apply mem_layerFindings hrule
  simp [Rule.findings, hid]

theorem id_le (h : device.Accepted) (hmode : device.mode = .layered)
    (hrule : rule ∈ device.rules layer) : rule.id ≤ layer.maxLayeredId := by
  by_contra hid
  apply h.fault_not_mem (.device (.largeRuleId device.id layer rule.id layer.maxLayeredId))
  have hlayer : layer ∈ Layer.all := by cases layer <;> decide
  refine List.mem_append_left _ (List.mem_append_left _ (List.mem_flatMap.2 ⟨layer, hlayer, ?_⟩))
  rw [layerFindings, hmode]
  refine List.mem_append_right _ (List.mem_map.2 ⟨rule, List.mem_filter.2 ⟨hrule, ?_⟩, rfl⟩)
  simpa using hid

theorem field_layer (h : device.Accepted) (hrule : rule ∈ device.rules layer) :
    ∀ f ∈ rule.fields, f.field.layer = layer := by
  by_contra hnot
  push Not at hnot
  have hsome : (rule.fields.find? (·.field.layer ≠ layer)).isSome :=
    List.find?_isSome.2 (by simpa using hnot)
  obtain ⟨f, hfind⟩ := Option.isSome_iff_exists.1 hsome
  apply h.fault_not_mem (.device (.foreignField layer rule.id f.field))
  apply mem_layerFindings hrule
  rw [Rule.findings, hfind]
  simp

/-- The fields of a layer of fixed layout are all there, in their order, for both directions. -/
theorem map_field_fieldsFor (h : device.Accepted) (hrule : rule ∈ device.rules layer)
    {order : List HeaderField} (horder : layer.fieldOrder? = some order) (direction : Direction) :
    (rule.fieldsFor direction).map (·.field) = order := by
  by_contra hnot
  apply h.fault_not_mem (.device (.fieldOrder layer rule.id direction))
  apply mem_layerFindings hrule
  rw [Rule.findings, horder]
  refine List.mem_append_right _ (List.mem_flatMap.2 ⟨direction, by cases direction <;> decide, ?_⟩)
  simpa using hnot

theorem isCodeLength (h : device.Accepted) (hmode : device.mode = .composite) {code : RuleCode}
    (hcode : code ∈ device.codes) : isCodeLength code.length := by
  by_contra hlength
  rw [codes, List.mem_append, List.mem_singleton, List.mem_map] at hcode
  rcases hcode with ⟨composite, hcomposite, rfl⟩ | rfl
  · apply h.fault_not_mem (.device (.codeLength device.id composite.code))
    refine List.mem_append_left _ (List.mem_append_right _ (List.mem_flatMap.2
      ⟨composite, hcomposite, ?_⟩))
    simp [compositeFindings, hlength]
  · apply h.fault_not_mem (.device (.uncompressedCodeLength device.id device.uncompressed))
    rw [findings, hmode]
    apply List.mem_append_right _
    simp [hlength]

theorem exists_rule_of_composite (h : device.Accepted) {composite : CompositeRule}
    (hcomposite : composite ∈ device.composites) {id : Nat}
    (hid : composite.selection.layer? layer = some id) :
    ∃ rule, device.rule layer id = .ok rule := by
  cases hrule : device.rule layer id with
  | ok rule => exact ⟨rule, rfl⟩
  | error error =>
    have hlayer : layer ∈ Layer.all := by cases layer <;> decide
    have hmem : .fault error ∈ device.compositeFindings composite := by
      refine List.mem_append_right _ (List.mem_filterMap.2 ⟨layer, hlayer, ?_⟩)
      simp only [hid, hrule]
    exact (h.fault_not_mem error (List.mem_append_left _ (List.mem_append_right _
      (List.mem_flatMap.2 ⟨composite, hcomposite, hmem⟩)))).elim

end Accepted

/-- A text of known characters is evaluated without looking at its bytes. -/
theorem accepted_of_chars {text : String} {chars : List Char} {set : RuleSet}
    (htext : text = String.ofList chars) (hcheck : set.check = .ok ())
    (hread : Document.readChars Document.ruleSet chars = .ok set) (hdevice : device ∈ set.devices) :
    device.Accepted := by
  refine ⟨text, set, ?_, hdevice⟩
  rw [RuleSet.ofText, RuleSet.load]
  rw [htext, Document.read_ofList, hread]
  dsimp only
  rw [hcheck]

def sensorText : String :=
  "[[[1,\"layered\",0,8,null,[],
    [[1,null,[[\"UDP.DEV_PORT\",null,null,5683,\"equal\",null,\"not-sent\"],
    [\"UDP.APP_PORT\",null,null,61616,\"MSB\",12,\"LSB\"],
    [\"UDP.LEN\",null,null,null,\"ignore\",null,\"compute-length\"],
    [\"UDP.CKSUM\",null,null,null,\"ignore\",null,\"value-sent\"]]]],
    [[1,null,[[\"COAP.VER\",null,null,1,\"equal\",null,\"not-sent\"],
    [\"COAP.TYPE\",null,null,[0,1],\"match-mapping\",null,\"mapping-sent\"],
    [\"COAP.TKL\",null,null,null,\"ignore\",null,\"value-sent\"],
    [\"COAP.CODE\",null,null,1,\"equal\",null,\"not-sent\"],
    [\"COAP.MID\",null,null,null,\"ignore\",null,\"value-sent\"],
    [\"COAP.TOKEN\",null,null,null,\"ignore\",null,\"value-sent\"]]]]]]]"

/-- A device of one UDP rule and one CoAP rule; its IPv6 headers travel as they are. -/
def sensor : Device :=
  ⟨1, .layered, ⟨0, 8⟩, none, [],
    [⟨1, none, [
      ⟨.udpDevicePort, .fixed 16, none, .equal, .single [0x16, 0x33], .notSent⟩,
      ⟨.udpAppPort, .fixed 16, none, .msb 12, .single [0xF0, 0xB0], .lsb⟩,
      ⟨.udpLength, .fixed 16, none, .ignore, .none, .computeLength⟩,
      ⟨.udpChecksum, .fixed 16, none, .ignore, .none, .valueSent⟩]⟩],
    [⟨1, none, [
      ⟨.coapVersion, .fixed 2, none, .equal, .single [1], .notSent⟩,
      ⟨.coapType, .fixed 2, none, .mapping, .list [[0], [1]], .mappingSent⟩,
      ⟨.coapTokenLength, .fixed 4, none, .ignore, .none, .valueSent⟩,
      ⟨.coapCode, .fixed 8, none, .equal, .single [1], .notSent⟩,
      ⟨.coapMessageId, .fixed 16, none, .ignore, .none, .valueSent⟩,
      ⟨.coapToken, .token, none, .ignore, .none, .valueSent⟩]⟩], []⟩

set_option maxRecDepth 4000 in
theorem sensor_accepted : sensor.Accepted := by
  have htext : sensorText = String.ofList _ := rfl
  have hcheck : RuleSet.check ⟨[sensor]⟩ = .ok () := by decide +kernel
  exact accepted_of_chars htext hcheck (by decide +kernel) List.mem_cons_self

end Device

end HeaderCompression
