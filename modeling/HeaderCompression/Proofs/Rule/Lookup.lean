import HeaderCompression.Proofs.Packet.Layers

namespace HeaderCompression

variable {device : Device} {layer : Layer} {direction : Direction} {columns : List Column}
  {rule found : Rule} {rules before after : List Rule}

namespace Rule

theorem select?_eq_some_iff :
    select? rules columns direction = some rule ↔ rule.accepts columns direction ∧
      ∃ before after, rules = before ++ rule :: after ∧
        ∀ other ∈ before, !other.accepts columns direction :=
  List.find?_eq_some_iff_append

theorem accepts_eq_of_fields (h : found.fields = rule.fields) :
    found.accepts columns direction = rule.accepts columns direction := by
  have hfields : found.fieldsFor direction = rule.fieldsFor direction := by
    rw [fieldsFor, h, fieldsFor]
  rw [accepts, accepts, hfields]

theorem takeWhile_not_accepts (haccepts : rule.accepts columns direction)
    (hbefore : ∀ other ∈ before, !other.accepts columns direction) :
    (before ++ rule :: after).takeWhile (!·.accepts columns direction) = before := by
  rw [List.takeWhile_append_of_pos hbefore, List.takeWhile_cons_of_neg (by simp [haccepts]),
    List.append_nil]

end Rule

namespace Device

theorem rule_append (h : device.rules layer = before ++ rule :: after) :
    device.rule layer rule.id = .ok ((before.find? (·.id == rule.id)).getD rule) := by
  have hself : (rule :: after).find? (·.id == rule.id) = some rule :=
    List.find?_cons_of_pos (by simp)
  rw [Device.rule, h, List.find?_append, hself]
  cases before.find? (·.id == rule.id) <;> rfl

/-- The id of the selected rule leads to a rule of that id, and to the selected one exactly if none
of the rules in front of it, which do not accept the columns, has the same id. Any other rule that
it leads to has other fields. -/
theorem rule_selected_iff (device : Device) (layer : Layer) (columns : List Column)
    (direction : Direction) (rule : Rule)
    (hselect : Rule.select? (device.rules layer) columns direction = some rule) :
    ∃ found, device.rule layer rule.id = .ok found ∧ found.id = rule.id ∧
      (found = rule ↔
        ∀ other ∈ (device.rules layer).takeWhile (!·.accepts columns direction),
          other.id ≠ rule.id) ∧
      (found.fields = rule.fields ↔ found = rule) := by
  obtain ⟨haccepts, before, after, hrules, hbefore⟩ := Rule.select?_eq_some_iff.1 hselect
  refine ⟨_, rule_append hrules, ?_⟩
  rw [hrules, Rule.takeWhile_not_accepts haccepts hbefore]
  cases hfind : before.find? (·.id == rule.id) with
  | none =>
    have hnone : ∀ other ∈ before, other.id ≠ rule.id := by simpa using hfind
    simpa using hnone
  | some other =>
    have hmem := List.mem_of_find?_eq_some hfind
    have hid : other.id = rule.id := by simpa using List.find?_some hfind
    have hother : other.fields ≠ rule.fields := by
      intro hfields
      have hrejects := hbefore other hmem
      rw [Rule.accepts_eq_of_fields hfields, haccepts] at hrejects
      cases hrejects
    have hne : other ≠ rule := fun h => hother (congrArg Rule.fields h)
    refine ⟨hid, iff_of_false hne fun h => h other hmem hid, iff_of_false hother hne⟩

def portRule (id : Nat) (port : List UInt8) : Rule :=
  ⟨id, none, [
    ⟨.udpDevicePort, .fixed 16, none, .equal, .single port, .notSent⟩,
    ⟨.udpAppPort, .fixed 16, none, .ignore, .none, .valueSent⟩,
    ⟨.udpLength, .fixed 16, none, .ignore, .none, .valueSent⟩,
    ⟨.udpChecksum, .fixed 16, none, .ignore, .none, .valueSent⟩]⟩

def siblings : Device :=
  ⟨1, .layered, ⟨0, 8⟩, none, [], [portRule 1 [0x16, 0x33], portRule 2 [0x16, 0x34]], [], []⟩

/-- The second rule is selected behind one that has another id, and found by its own. -/
theorem siblings_rule_selected :
    let columns := Layout.columns (Layout.udp .up) [0x16, 0x34, 0xF0, 0xB0, 0, 8, 0xAB, 0xCD]
    Rule.select? (siblings.rules .transport) columns .up = some (portRule 2 [0x16, 0x34]) ∧
      (siblings.rules .transport).takeWhile (!·.accepts columns .up) =
        [portRule 1 [0x16, 0x33]] ∧
      siblings.rule .transport 2 = .ok (portRule 2 [0x16, 0x34]) := by
  intro columns
  have hselect : Rule.select? (siblings.rules .transport) columns .up =
      some (portRule 2 [0x16, 0x34]) := by decide +kernel
  have hbefore : (siblings.rules .transport).takeWhile (!·.accepts columns .up) =
      [portRule 1 [0x16, 0x33]] := by decide +kernel
  obtain ⟨found, hfound, -, hsame, -⟩ :=
    rule_selected_iff siblings .transport columns .up _ hselect
  rw [hbefore] at hsame
  obtain rfl := hsame.2 (by decide)
  exact ⟨hselect, hbefore, hfound⟩

def twinsText : String :=
  "[[[1,\"layered\",0,8,null,[],
    [[1,null,[[\"UDP.DEV_PORT\",null,null,5683,\"equal\",null,\"not-sent\"],
    [\"UDP.APP_PORT\",null,null,null,\"ignore\",null,\"value-sent\"],
    [\"UDP.LEN\",null,null,null,\"ignore\",null,\"value-sent\"],
    [\"UDP.CKSUM\",null,null,null,\"ignore\",null,\"value-sent\"]]],
    [1,null,[[\"UDP.DEV_PORT\",null,null,5684,\"equal\",null,\"not-sent\"],
    [\"UDP.APP_PORT\",null,null,null,\"ignore\",null,\"value-sent\"],
    [\"UDP.LEN\",null,null,null,\"ignore\",null,\"value-sent\"],
    [\"UDP.CKSUM\",null,null,null,\"ignore\",null,\"value-sent\"]]]],[]]]]"

/-- A device of two UDP rules that have the same id. -/
def twins : Device :=
  ⟨1, .layered, ⟨0, 8⟩, none, [], [portRule 1 [0x16, 0x33], portRule 1 [0x16, 0x34]], [], []⟩

set_option maxRecDepth 4000 in
theorem twins_accepted : twins.Accepted := by
  have htext : twinsText = String.ofList _ := rfl
  have hcheck : RuleSet.check ⟨[twins]⟩ = .ok () := by decide +kernel
  exact accepted_of_chars htext hcheck (by decide +kernel) List.mem_cons_self

/-- The second rule is selected, and the first is found by its id. -/
theorem selected_rule_not_found :
    ¬ ∀ (device : Device) (layer : Layer) (columns : List Column) (direction : Direction)
        (rule : Rule), device.Accepted →
      Rule.select? (device.rules layer) columns direction = some rule →
      ∃ found, device.rule layer rule.id = .ok found ∧ found.fields = rule.fields := by
  intro h
  have hselect : Rule.select? (twins.rules .transport)
      (Layout.columns (Layout.udp .up) [0x16, 0x34, 0xF0, 0xB0, 0, 8, 0xAB, 0xCD]) .up =
        some (portRule 1 [0x16, 0x34]) := by decide +kernel
  have hfound : twins.rule .transport 1 = .ok (portRule 1 [0x16, 0x33]) := rfl
  obtain ⟨found, hrule, hfields⟩ := h twins .transport _ .up _ twins_accepted hselect
  cases hfound.symm.trans hrule
  exact absurd hfields (by decide)

end Device

end HeaderCompression
