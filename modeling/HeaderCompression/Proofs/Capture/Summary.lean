import HeaderCompression.Capture.Report
import HeaderCompression.Proofs.Packet.RoundTrip

namespace HeaderCompression.Capture

variable {settings : Settings} {summary : Summary} {frame : List UInt8}
  {frames : List (List UInt8)} {max : Nat}

/-- What the packet in a frame is compressed to, by an endpoint of its own; none if the frame has no
packet or the packet is not compressed. -/
def result? (settings : Settings) (frame : List UInt8) : Option CompressedPacket :=
  match settings.link.packet frame with
  | .error _ => none
  | .ok packet =>
    let device := settings.device
    let direction := directionOf packet device.address? settings.direction
    (compress device packet (.ofDevice device direction)).1.toOption

namespace Summary

/-- Counts a frame while it is worked on: at first as a packet, in the end as what it has become. -/
def step (settings : Settings) (summary : Summary) (frame : List UInt8) : Summary :=
  let summary := { summary with packets := summary.packets + 1 }
  match settings.link.packet frame with
  | .error _ => { summary with skipped := summary.skipped + 1 }
  | .ok packet =>
    let device := settings.device
    let direction := directionOf packet device.address? settings.direction
    match compress device packet (.ofDevice device direction) with
    | (.error _, _) => { summary with skipped := summary.skipped + 1 }
    | (.ok result, endpoint) =>
      let summary := { summary with
        compressed := summary.compressed + 1
        sizes := ⟨summary.sizes.originalBits + result.sizes.originalBits,
          summary.sizes.compressedBits + result.sizes.compressedBits⟩ }
      if settings.verify then
        match decompress device endpoint result.data with
        | .ok restored =>
          if restored.data = packet then { summary with verified := summary.verified + 1 }
          else { summary with failures := summary.failures + 1 }
        | .error _ => { summary with failures := summary.failures + 1 }
      else summary

/-- Counts frames until there are `max`; there is no end to them if `max` is zero. -/
def scan (settings : Settings) (max : Nat) : List (List UInt8) → Summary → Summary
  | [], summary => summary
  | frame :: frames, summary =>
    if 0 < max ∧ max ≤ summary.packets then summary
    else scan settings max frames (summary.step settings frame)

theorem step_eq (settings : Settings) (summary : Summary) (frame : List UInt8) :
    summary.step settings frame = summary.count (outcome settings frame) := by
  unfold step outcome
  cases settings.link.packet frame with
  | error error => rfl
  | ok packet =>
    dsimp only
    rcases compress settings.device packet _ with ⟨error | result, endpoint⟩
    · rfl
    · cases settings.verify with
      | false => rfl
      | true =>
        simp only [verify, if_true]
        cases decompress settings.device endpoint result.data with
        | error error => rfl
        | ok restored =>
          by_cases hdata : restored.data = packet
          · simp only [if_pos hdata]
            rfl
          · simp only [if_neg hdata]
            rfl

/-- What one frame can do: it is skipped, or it is compressed and, if this is asked for, restored
with success or without. -/
theorem step_cases (settings : Settings) (summary : Summary) (frame : List UInt8) :
    (result? settings frame = none ∧ summary.step settings frame =
      { summary with packets := summary.packets + 1, skipped := summary.skipped + 1 }) ∨
    ∃ result verified failures, result? settings frame = some result ∧
      verified + failures = (if settings.verify then 1 else 0) ∧
      summary.step settings frame =
        { packets := summary.packets + 1, compressed := summary.compressed + 1,
          skipped := summary.skipped, verified := summary.verified + verified,
          failures := summary.failures + failures,
          sizes := ⟨summary.sizes.originalBits + result.sizes.originalBits,
            summary.sizes.compressedBits + result.sizes.compressedBits⟩ } := by
  unfold step result?
  cases settings.link.packet frame with
  | error error => exact .inl ⟨rfl, rfl⟩
  | ok packet =>
    dsimp only
    rcases compress settings.device packet _ with ⟨error | result, endpoint⟩
    · exact .inl ⟨rfl, rfl⟩
    · cases settings.verify with
      | false => exact .inr ⟨result, 0, 0, rfl, rfl, rfl⟩
      | true =>
        simp only [if_true]
        cases decompress settings.device endpoint result.data with
        | error error => exact .inr ⟨result, 0, 1, rfl, rfl, rfl⟩
        | ok restored =>
          by_cases hdata : restored.data = packet
          · exact .inr ⟨result, 1, 0, rfl, rfl, if_pos hdata⟩
          · exact .inr ⟨result, 0, 1, rfl, rfl, if_neg hdata⟩

theorem packets_step : (summary.step settings frame).packets = summary.packets + 1 := by
  obtain ⟨-, hstep⟩ | ⟨_, _, _, -, -, hstep⟩ := step_cases settings summary frame <;> rw [hstep]

theorem scan_eq_foldl (settings : Settings) (max : Nat) (frames : List (List UInt8))
    (summary : Summary) : summary.scan settings max frames =
      (if max = 0 then frames else frames.take (max - summary.packets)).foldl
        (step settings) summary := by
  induction frames generalizing summary with
  | nil => rw [scan, List.take_nil, ite_self, List.foldl_nil]
  | cons frame frames ih =>
    rw [scan, ih, packets_step]
    by_cases hmax : max = 0
    · rw [if_pos hmax, if_pos hmax, if_neg (by omega), List.foldl_cons]
    · rw [if_neg hmax, if_neg hmax]
      by_cases hfull : max ≤ summary.packets
      · rw [if_pos ⟨Nat.pos_of_ne_zero hmax, hfull⟩, Nat.sub_eq_zero_of_le hfull, List.take_zero,
          List.foldl_nil]
      · have hroom : max - summary.packets = max - (summary.packets + 1) + 1 := by omega
        rw [if_neg fun h => hfull h.2, hroom, List.take_succ_cons, List.foldl_cons]

theorem scan_empty (settings : Settings) (max : Nat) (frames : List (List UInt8)) :
    empty.scan settings max frames = (limit max frames).foldl (step settings) empty :=
  scan_eq_foldl settings max frames empty

/-- The pass sums up outcomes that do not depend on each other. -/
theorem scan_empty_eq_ofOutcomes (settings : Settings) (max : Nat) (frames : List (List UInt8)) :
    empty.scan settings max frames = ofOutcomes ((limit max frames).map (outcome settings)) := by
  have hstep : step settings = fun summary frame => summary.count (outcome settings frame) :=
    funext fun summary => funext fun frame => step_eq settings summary frame
  rw [scan_empty, ofOutcomes, List.foldl_map, hstep]

/-- The counters of a summary after some frames: one count for each of them, and the sizes of what
was compressed. -/
structure Accounts (settings : Settings) (frames : List (List UInt8)) (summary : Summary) :
    Prop where
  packets : summary.packets = frames.length
  compressed : summary.compressed = (frames.filterMap (result? settings)).length
  skipped : summary.compressed + summary.skipped = summary.packets
  checked : summary.verified + summary.failures = if settings.verify then summary.compressed else 0
  originalBits : summary.sizes.originalBits =
    ((frames.filterMap (result? settings)).map (·.sizes.originalBits)).sum
  compressedBits : summary.sizes.compressedBits =
    ((frames.filterMap (result? settings)).map (·.sizes.compressedBits)).sum

theorem accounts_empty (settings : Settings) : empty.Accounts settings [] where
  packets := rfl
  compressed := rfl
  skipped := rfl
  checked := by cases settings.verify <;> rfl
  originalBits := rfl
  compressedBits := rfl

theorem Accounts.step (h : summary.Accounts settings frames) (frame : List UInt8) :
    (summary.step settings frame).Accounts settings (frames ++ [frame]) := by
  obtain ⟨hresult, hstep⟩ | ⟨result, verified, failures, hresult, hchecked, hstep⟩ :=
    step_cases settings summary frame
  · have hskipped := h.skipped
    rw [hstep]
    constructor <;>
      simp only [List.filterMap_append, List.filterMap_cons, hresult, List.filterMap_nil,
        List.append_nil, List.length_append, List.length_singleton]
    · rw [h.packets]
    · exact h.compressed
    · omega
    · exact h.checked
    · exact h.originalBits
    · exact h.compressedBits
  · have hskipped := h.skipped
    have hold := h.checked
    rw [hstep]
    constructor <;>
      simp only [List.filterMap_append, List.filterMap_cons, hresult, List.filterMap_nil,
        List.length_append, List.length_singleton, List.map_append, List.map_cons, List.map_nil,
        List.sum_append, List.sum_singleton]
    · rw [h.packets]
    · rw [h.compressed]
    · omega
    · cases hverify : settings.verify <;> simp [hverify] at hchecked hold ⊢ <;> omega
    · rw [h.originalBits]
    · rw [h.compressedBits]

theorem Accounts.foldl (h : summary.Accounts settings frames) (more : List (List UInt8)) :
    (more.foldl (Summary.step settings) summary).Accounts settings (frames ++ more) := by
  induction more generalizing summary frames with
  | nil => rwa [List.append_nil]
  | cons frame more ih =>
    rw [List.append_cons]
    exact ih (h.step frame)

def plus (a b : Summary) : Summary :=
  ⟨a.packets + b.packets, a.compressed + b.compressed, a.skipped + b.skipped,
    a.verified + b.verified, a.failures + b.failures,
    ⟨a.sizes.originalBits + b.sizes.originalBits,
      a.sizes.compressedBits + b.sizes.compressedBits⟩⟩

theorem plus_right_comm (a b c : Summary) : (a.plus b).plus c = (a.plus c).plus b := by
  simp only [plus, Nat.add_right_comm]

theorem count_eq_plus (summary : Summary) (outcome : Outcome) :
    summary.count outcome = summary.plus (empty.count outcome) := by
  cases outcome with
  | noPacket => simp [count, plus, empty]
  | skipped error => simp [count, plus, empty]
  | compressed direction packet result verification? =>
    rcases verification? with _ | _ | _ | _ <;> simp [count, countVerification, plus, empty]

theorem count_right_comm (summary : Summary) (a b : Outcome) :
    (summary.count a).count b = (summary.count b).count a := by
  rw [count_eq_plus (summary.count a) b, count_eq_plus summary a, count_eq_plus (summary.count b) a,
    count_eq_plus summary b, plus_right_comm]

theorem ofOutcomes_eq_of_perm {first second : List Outcome} (h : first.Perm second) :
    ofOutcomes first = ofOutcomes second :=
  h.foldl_eq' (fun _ _ _ _ summary => count_right_comm summary _ _) empty

end Summary

/-- Once the pass is over, every frame up to the maximum has been counted as one packet, which is
compressed or skipped; every packet that was compressed has been restored with success or without
if this was asked for, and has added its sizes. Each frame has been counted for what it is alone, so
that without a maximum the order of the frames makes no difference. -/
theorem scan_accounts (settings : Settings) (max : Nat) (frames : List (List UInt8)) :
    let summary := Summary.empty.scan settings max frames
    summary = .ofOutcomes ((limit max frames).map (outcome settings)) ∧
    summary.Accounts settings (limit max frames) ∧
    (limit max frames).length = (if max = 0 then frames.length else min max frames.length) ∧
    ∀ others, frames.Perm others →
      Summary.empty.scan settings 0 others = Summary.empty.scan settings 0 frames := by
  refine ⟨Summary.scan_empty_eq_ofOutcomes settings max frames, ?_, ?_, fun others h => ?_⟩
  · rw [Summary.scan_empty]
    exact (Summary.accounts_empty settings).foldl (limit max frames)
  · rw [limit]
    split
    · rfl
    · exact List.length_take
  · rw [Summary.scan_empty_eq_ofOutcomes, Summary.scan_empty_eq_ofOutcomes]
    exact Summary.ofOutcomes_eq_of_perm (h.symm.map _)

def sensorSettings : Settings :=
  ⟨Device.sensor, .up, .ofLength 2, true⟩

/-- A frame that ends in its link header, one that has too few bytes behind it, and one whose packet
is compressed and restored. -/
def sensorFrames : List (List UInt8) :=
  [[0], [0, 0, 0x60], [0, 0] ++ Device.sensorPacket]

theorem sensorFrames_reordered :
    sensorFrames.Perm sensorFrames.reverse ∧
      Summary.empty.scan sensorSettings 0 sensorFrames = ⟨3, 1, 2, 1, 0, ⟨432, 400⟩⟩ ∧
      Summary.empty.scan sensorSettings 0 sensorFrames.reverse = ⟨3, 1, 2, 1, 0, ⟨432, 400⟩⟩ := by
  have hperm := sensorFrames.reverse_perm.symm
  have hscan : Summary.empty.scan sensorSettings 0 sensorFrames = ⟨3, 1, 2, 1, 0, ⟨432, 400⟩⟩ := by
    decide +kernel
  obtain ⟨-, -, -, hreorder⟩ := scan_accounts sensorSettings 0 sensorFrames
  exact ⟨hperm, hscan, (hreorder _ hperm).trans hscan⟩

end HeaderCompression.Capture
