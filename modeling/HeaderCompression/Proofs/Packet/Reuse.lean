import HeaderCompression.Proofs.Packet.Assembly

namespace HeaderCompression

namespace Endpoint

def fresh (endpoint : Endpoint) : Endpoint :=
  { endpoint with columns := [] }

structure Keeps (before after : Endpoint) : Prop where
  direction : after.direction = before.direction
  address? : after.address? = before.address?
  capacity? : after.capacity? = before.capacity?

variable {before between after : Endpoint}

theorem Keeps.refl (endpoint : Endpoint) : endpoint.Keeps endpoint := ⟨rfl, rfl, rfl⟩

theorem keeps_fresh (endpoint : Endpoint) : endpoint.Keeps endpoint.fresh := ⟨rfl, rfl, rfl⟩

theorem Keeps.trans (h : before.Keeps between) (h' : between.Keeps after) : before.Keeps after :=
  ⟨h'.direction.trans h.direction, h'.address?.trans h.address?, h'.capacity?.trans h.capacity?⟩

theorem Keeps.fresh_eq (h : before.Keeps after) : after.fresh = before.fresh := by
  rw [fresh, fresh]
  rw [h.direction, h.address?, h.capacity?]

theorem Keeps.accept_eq (h : before.Keeps after) (packet : CompressedPacket) :
    after.accept packet = before.accept packet := by
  rw [accept, accept]
  rw [h.capacity?]

end Endpoint

def session
    (send : Device → List UInt8 → Endpoint → Except Error CompressedPacket × Endpoint) :
    List (Device × List UInt8) → Endpoint → List (Except Error CompressedPacket) × Endpoint
  | [], endpoint => ([], endpoint)
  | (device, packet) :: calls, endpoint =>
    let (result, endpoint) := send device packet endpoint
    let (results, endpoint) := session send calls endpoint
    (result :: results, endpoint)

abbrev Loader := Endpoint → Layer → List UInt8 → Except Error Nat × Endpoint

namespace Loader

def send (load : Loader) (device : Device) (layer : Layer) (data : List UInt8)
    (endpoint : Endpoint) : SentLayer × Endpoint :=
  let (length, endpoint) := load endpoint layer data
  let sent :=
    match length with
    | .error _ => .verbatim data
    | .ok length =>
      match Rule.select? (device.rules layer) endpoint.columns endpoint.direction with
      | none => .verbatim data
      | some rule =>
        match rule.residue endpoint endpoint.columns with
        | .error _ => .verbatim data
        | .ok bytes => ⟨some rule.id, bytes, length⟩
  (sent, endpoint)

def compress (load : Loader) (device : Device) (packet : List UInt8) (endpoint : Endpoint) :
    Except Error CompressedPacket × Endpoint :=
  if packet.length < ipv6HeaderLength + udpHeaderLength then
    (.error (.packet (.shortPacket packet.length)), endpoint)
  else
    let (ip, rest) := packet.splitAt ipv6HeaderLength
    let (udp, coap) := rest.splitAt udpHeaderLength
    let (ipv6Layer, endpoint) := load.send device .network ip endpoint
    let (udpLayer, endpoint) := load.send device .transport udp endpoint
    let (coapLayer, endpoint) := load.send device .application coap endpoint
    let payload := coap.drop coapLayer.consumed
    (endpoint.accept (assemble device packet ipv6Layer udpLayer coapLayer payload), endpoint)

theorem compress_load : compress Endpoint.load = HeaderCompression.compress := rfl

/-- A loader that does not read the columns that are there, and changes nothing else. -/
structure Clears (load : Loader) : Prop where
  load_fresh : ∀ endpoint layer data, load endpoint.fresh layer data = load endpoint layer data
  keeps : ∀ endpoint layer data, Endpoint.Keeps endpoint (load endpoint layer data).2

variable {load : Loader} {device : Device} {packet : List UInt8} {endpoint before after : Endpoint}

theorem Clears.send_eq (h : load.Clears) (hkeeps : before.Keeps after) (layer : Layer)
    (data : List UInt8) :
    load.send device layer data after = load.send device layer data before := by
  rw [send, send]
  rw [← h.load_fresh after, ← h.load_fresh before, hkeeps.fresh_eq]

theorem Clears.send_keeps (h : load.Clears) (device : Device) (layer : Layer) (data : List UInt8)
    (endpoint : Endpoint) : endpoint.Keeps (load.send device layer data endpoint).2 :=
  h.keeps endpoint layer data

/-- No layer reads the columns that another one leaves behind. -/
theorem Clears.compress_fst (h : load.Clears)
    (hlen : ¬ packet.length < ipv6HeaderLength + udpHeaderLength) :
    (load.compress device packet endpoint).1 =
      let sent (layer : Layer) : SentLayer :=
        (load.send device layer (layer.dataOf packet) endpoint).1
      endpoint.accept (assemble device packet (sent .network) (sent .transport) (sent .application)
        ((Layer.application.dataOf packet).drop (sent .application).consumed)) := by
  -- Whichever layer comes next, the endpoint differs from the first one in its columns at most.
  have hkeeps (layer : Layer) := h.send_keeps device layer (layer.dataOf packet) endpoint
  simp only [Layer.dataOf, compress, if_neg hlen, List.splitAt_eq] at hkeeps ⊢
  rw [h.send_eq (hkeeps .network) .transport, h.send_eq (hkeeps .transport) .application,
    (hkeeps .application).accept_eq]

theorem Clears.compress_fresh (h : load.Clears) :
    (load.compress device packet endpoint.fresh).1 = (load.compress device packet endpoint).1 := by
  by_cases hshort : packet.length < ipv6HeaderLength + udpHeaderLength
  · simp only [compress, if_pos hshort]
  · rw [h.compress_fst hshort, h.compress_fst hshort]
    simp only [h.send_eq (Endpoint.keeps_fresh endpoint)]
    exact (Endpoint.keeps_fresh endpoint).accept_eq _

theorem Clears.compress_keeps (h : load.Clears) :
    endpoint.Keeps (load.compress device packet endpoint).2 := by
  by_cases hshort : packet.length < ipv6HeaderLength + udpHeaderLength
  · simp only [compress, if_pos hshort]
    exact .refl endpoint
  · simp only [compress, if_neg hshort]
    exact ((h.send_keeps ..).trans (h.send_keeps ..)).trans (h.send_keeps ..)

theorem Clears.session_fst (h : load.Clears) (calls : List (Device × List UInt8))
    (endpoint : Endpoint) : (session load.compress calls endpoint).1 =
      calls.map fun (device, packet) => (load.compress device packet endpoint.fresh).1 := by
  induction calls generalizing endpoint with
  | nil => rfl
  | cons call calls ih =>
    obtain ⟨device, packet⟩ := call
    have hrest := ih (load.compress device packet endpoint).2
    rw [h.compress_keeps.fresh_eq] at hrest
    rw [List.map_cons, ← hrest]
    dsimp only
    rw [h.compress_fresh]
    rfl

theorem Clears.session_keeps (h : load.Clears) (calls : List (Device × List UInt8))
    (endpoint : Endpoint) : endpoint.Keeps (session load.compress calls endpoint).2 := by
  induction calls generalizing endpoint with
  | nil => exact .refl endpoint
  | cons call calls ih => exact h.compress_keeps.trans (ih _)

end Loader

abbrev Filling := EStateM Error (List Column)

namespace Filling

def append (columns : List Column) : Filling Unit :=
  modify (· ++ columns)

/-- The columns of a CoAP message, added one after the other: an option that has no column ends the
run behind the columns before it. -/
def message (data : List UInt8) : Filling Nat := do
  let message ← ofExcept (CoapMessage.ofBytes? data)
  append (CoapHeader.fixedColumns message)
  append (CoapHeader.tokenColumns message)
  message.options.forM fun option => do
    append [← ofExcept (CoapHeader.optionColumn option)]
  append (CoapHeader.markerColumns message)
  return data.length - message.payload.length

def header (layer : Layer) (direction : Direction) (data : List UInt8) : Filling Nat :=
  match layer with
  | .network => do
    append (← ofExcept (Ipv6Header.columns direction data))
    return data.length
  | .transport => do
    append (← ofExcept (UdpHeader.columns direction data))
    return data.length
  | .application => message data

def cleared {α : Type} (run : Filling α) : Filling α := do
  set ([] : List Column)
  run

/-- A run adds the columns that a computation gives, and fails with its error. -/
def Adds {α : Type} (run : Filling α) (result : Except Error (List Column × α)) : Prop :=
  match result with
  | .ok (columns, a) => ∀ there, run there = .ok a (there ++ columns)
  | .error error => ∀ there, ∃ left, run there = .error error left

variable {α β : Type} {run : Filling α} {next : α → Filling β}

theorem adds_append (columns : List Column) : Adds (append columns) (.ok (columns, ())) :=
  fun _ => rfl

theorem adds_pure (a : α) : Adds (pure a) (.ok ([], a)) := fun there =>
  congrArg (EStateM.Result.ok a) (List.append_nil there).symm

theorem adds_ofExcept (x : Except Error α) : Adds (ofExcept x) (([], ·) <$> x) := by
  cases x with
  | error error => exact fun there => ⟨there, rfl⟩
  | ok a => exact adds_pure a

theorem Adds.bind {result : Except Error (List Column × α)}
    {results : α → Except Error (List Column × β)} (h : run.Adds result)
    (hnext : ∀ a, (next a).Adds (results a)) : Adds (run >>= next) (do
      let (columns, a) ← result
      let (more, b) ← results a
      return (columns ++ more, b)) := by
  cases result with
  | error error =>
    intro there
    obtain ⟨left, hleft⟩ := h there
    exact ⟨left, run_bind_eq_error_iff.2 (.inl hleft)⟩
  | ok pair =>
    obtain ⟨columns, a⟩ := pair
    have hmore := hnext a
    change Adds _ (results a >>= fun (more, b) => pure (columns ++ more, b))
    cases hresults : results a with
    | error error =>
      intro there
      rw [hresults] at hmore
      obtain ⟨left, hleft⟩ := hmore (there ++ columns)
      exact ⟨left, run_bind_eq_error_iff.2 (.inr ⟨_, _, h there, hleft⟩)⟩
    | ok pair =>
      intro there
      rw [hresults] at hmore
      rw [← List.append_assoc]
      exact run_bind_eq_ok_iff.2 ⟨_, _, h there, hmore (there ++ columns)⟩

theorem Adds.of_eq {result result' : Except Error (List Column × α)} (h : run.Adds result)
    (heq : result = result') : run.Adds result' :=
  heq ▸ h

theorem adds_options (options : List CoapOption) :
    Adds (options.forM fun option => do append [← ofExcept (CoapHeader.optionColumn option)])
      ((·, ()) <$> options.mapM CoapHeader.optionColumn) := by
  induction options with
  | nil => exact adds_pure ()
  | cons option options ih =>
    refine (((adds_ofExcept (CoapHeader.optionColumn option)).bind
      fun column => adds_append [column]).bind fun _ => ih).of_eq ?_
    rw [List.mapM_cons]
    cases CoapHeader.optionColumn option with
    | error error => rfl
    | ok column => cases options.mapM CoapHeader.optionColumn <;> rfl

theorem adds_message (data : List UInt8) : Adds (message data) (CoapHeader.columns data) := by
  refine ((adds_ofExcept (CoapMessage.ofBytes? data)).bind fun message =>
    (adds_append (CoapHeader.fixedColumns message)).bind fun _ =>
    (adds_append (CoapHeader.tokenColumns message)).bind fun _ =>
    (adds_options message.options).bind fun _ =>
    (adds_append (CoapHeader.markerColumns message)).bind fun _ =>
    adds_pure (data.length - message.payload.length)).of_eq ?_
  rw [CoapHeader.columns]
  cases CoapMessage.ofBytes? data with
  | error error => rfl
  | ok message =>
    simp only [CoapHeader.messageColumns, bind, Except.bind, Functor.map, Except.map, pure,
      Except.pure]
    cases message.options.mapM CoapHeader.optionColumn with
    | error error => rfl
    | ok columns => simp

theorem adds_header (layer : Layer) (direction : Direction) (data : List UInt8) :
    Adds (header layer direction data) (layer.columns direction data) := by
  cases layer with
  | network =>
    refine ((adds_ofExcept (Ipv6Header.columns direction data)).bind fun columns =>
      (adds_append columns).bind fun _ => adds_pure data.length).of_eq ?_
    cases hcolumns : Ipv6Header.columns direction data <;> simp [Layer.columns, hcolumns] <;> rfl
  | transport =>
    refine ((adds_ofExcept (UdpHeader.columns direction data)).bind fun columns =>
      (adds_append columns).bind fun _ => adds_pure data.length).of_eq ?_
    cases hcolumns : UdpHeader.columns direction data <;> simp [Layer.columns, hcolumns] <;> rfl
  | application => exact adds_message data

end Filling

/-- Takes a header apart into the endpoint's own list of columns. -/
def Endpoint.loadInPlace : Loader := fun endpoint layer data =>
  match (Filling.header layer endpoint.direction data).cleared endpoint.columns with
  | .ok length columns => (.ok length, { endpoint with columns })
  | .error error columns => (.error error, { endpoint with columns })

namespace Endpoint

theorem loadInPlace_eq (endpoint : Endpoint) (layer : Layer) (data : List UInt8) :
    match layer.columns endpoint.direction data with
    | .ok (columns, length) =>
      endpoint.loadInPlace layer data = (.ok length, { endpoint with columns })
    | .error error => ∃ columns,
      endpoint.loadInPlace layer data = (.error error, { endpoint with columns }) := by
  have hadds := Filling.adds_header layer endpoint.direction data
  have hcleared : (Filling.header layer endpoint.direction data).cleared endpoint.columns =
      Filling.header layer endpoint.direction data [] := rfl
  cases hcolumns : layer.columns endpoint.direction data with
  | error error =>
    rw [hcolumns] at hadds
    obtain ⟨left, hleft⟩ := hadds []
    refine ⟨left, ?_⟩
    rw [loadInPlace, hcleared, hleft]
  | ok pair =>
    rw [hcolumns] at hadds
    dsimp only
    rw [loadInPlace, hcleared, hadds []]
    rfl

theorem clears_load : Loader.Clears load := by
  refine ⟨fun endpoint layer data => rfl, fun endpoint layer data => ?_⟩
  rw [load]
  cases layer.columns endpoint.direction data <;> exact ⟨rfl, rfl, rfl⟩

theorem clears_loadInPlace : Loader.Clears loadInPlace := by
  refine ⟨fun endpoint layer data => rfl, fun endpoint layer data => ?_⟩
  rw [loadInPlace]
  cases (Filling.header layer endpoint.direction data).cleared endpoint.columns <;>
    exact ⟨rfl, rfl, rfl⟩

theorem send_loadInPlace (device : Device) (layer : Layer) (data : List UInt8)
    (endpoint : Endpoint) : (loadInPlace.send device layer data endpoint).1 =
      (Loader.send load device layer data endpoint).1 := by
  have hload := endpoint.loadInPlace_eq layer data
  cases hcolumns : layer.columns endpoint.direction data with
  | error error =>
    rw [hcolumns] at hload
    obtain ⟨columns, hload⟩ := hload
    simp only [Loader.send, hload, load, hcolumns]
  | ok pair =>
    rw [hcolumns] at hload
    simp only [Loader.send, hload, load, hcolumns]

theorem compress_loadInPlace (device : Device) (packet : List UInt8) (endpoint : Endpoint) :
    (loadInPlace.compress device packet endpoint).1 = (compress device packet endpoint).1 := by
  by_cases hshort : packet.length < ipv6HeaderLength + udpHeaderLength
  · simp only [Loader.compress, compress, if_pos hshort]
  · rw [clears_loadInPlace.compress_fst hshort, ← Loader.compress_load,
      clears_load.compress_fst hshort]
    simp only [send_loadInPlace]

end Endpoint

/-- Compression with one endpoint for all packets and devices gives each packet the result that it
has on an endpoint of its own, and changes nothing but the columns, also if these are filled in
place. Once a layer's header has been taken apart, the columns are those of this header. -/
theorem session_eq_fresh (endpoint : Endpoint) (calls : List (Device × List UInt8)) :
    let alone := calls.map fun (device, packet) => (compress device packet endpoint.fresh).1
    ((session compress calls endpoint).1 = alone ∧
      endpoint.Keeps (session compress calls endpoint).2) ∧
    ((session (Loader.compress Endpoint.loadInPlace) calls endpoint).1 = alone ∧
      endpoint.Keeps (session (Loader.compress Endpoint.loadInPlace) calls endpoint).2) ∧
    ∀ (layer : Layer) (data : List UInt8), match layer.columns endpoint.direction data with
      | .ok (columns, length) =>
        endpoint.loadInPlace layer data = (.ok length, { endpoint with columns })
      | .error error => ∃ columns,
        endpoint.loadInPlace layer data = (.error error, { endpoint with columns }) := by
  have hload := Endpoint.clears_load
  have hinPlace := Endpoint.clears_loadInPlace
  refine ⟨⟨hload.session_fst calls endpoint, hload.session_keeps calls endpoint⟩,
    ⟨?_, hinPlace.session_keeps calls endpoint⟩, endpoint.loadInPlace_eq⟩
  rw [hinPlace.session_fst]
  simp only [Endpoint.compress_loadInPlace]

/-- An option that has no column leaves those before it behind. -/
example : (Endpoint.ofDirection .up).loadInPlace .application [0x40, 1, 0, 7, 0x90] =
    (.error (.packet (.unnamedOption 9)),
      { Endpoint.ofDirection .up with columns :=
        [.ofNat .coapVersion 2 1, .ofNat .coapType 2 0, .ofNat .coapTokenLength 4 0,
          .ofNat .coapCode 8 1, .ofNat .coapMessageId 16 7] }) := by
  decide +kernel

end HeaderCompression
