/-
# Frames of the snapshot broker

A frame is the length of a canonical document in four bytes and the document.  It is sent over a
stream socket, which delivers it in pieces, and is received in two ways.

* `decodeFrameFromStream` reads until the header and the payload are complete;
* `receiveFramedJsonWithFds` reads the header with at most two reads;
* `receive_paths_iff` : where both return the document that was sent.
-/
import CogniOS.BrokerProtocol
import CogniOS.ByteStream
import CogniOS.JsonRead

namespace SnapshotBroker

open ByteStream (Carrying read readExact)

/-! ## Frames -/

/-- `struct.pack("!I", length)`. -/
def packLength (n : ℕ) : List UInt8 :=
  [UInt8.ofNat (n / 2 ^ 24 % 2 ^ 8), UInt8.ofNat (n / 2 ^ 16 % 2 ^ 8),
    UInt8.ofNat (n / 2 ^ 8 % 2 ^ 8), UInt8.ofNat (n % 2 ^ 8)]

/-- `struct.unpack("!I", header)[0]`. -/
def unpackLength (header : List UInt8) : ℕ :=
  header.foldl (fun n b => n * 2 ^ 8 + b.toNat) 0

theorem unpackLength_packLength {n : ℕ} (hn : n < 2 ^ 32) : unpackLength (packLength n) = n := by
  have hbyte : ∀ k, (UInt8.ofNat (k % 2 ^ 8)).toNat = k % 2 ^ 8 := fun k =>
    UInt8.toNat_ofNat_of_lt' (Nat.mod_lt k (by decide))
  simp only [unpackLength, packLength, List.foldl_cons, List.foldl_nil, hbyte]
  omega

/-- `encode_frame`. -/
def encodeFrame (value : Json) : Except CogniError (List UInt8) := do
  let payload ← canonicalJsonBytes value
  .ok (packLength payload.length ++ payload)

theorem encodeFrame_eq_ok {value : Json} {frame : List UInt8} :
    encodeFrame value = .ok frame ↔ value.encoding.length ≤ maxFrameBytes ∧
      frame = packLength value.encoding.length ++ value.encoding := by
  unfold encodeFrame canonicalJsonBytes
  constructor
  · intro hok
    obtain ⟨payload, hpayload, hframe⟩ := bind_eq_ok.mp hok
    obtain ⟨hlen, rfl⟩ := Json.boundedEncoding_eq_ok.mp hpayload
    exact ⟨hlen, (Except.ok.inj hframe).symm⟩
  · rintro ⟨hlen, rfl⟩
    exact bind_eq_ok.mpr ⟨_, Json.boundedEncoding_eq_ok.mpr ⟨hlen, rfl⟩, rfl⟩

/-- The document that a payload is the canonical encoding of.  A float literal is kept as it
stands where `json.dumps` writes the `repr` of its value: `reprs` holds of these. -/
def canonicalDocument (reprs : FloatLit → Bool) (payload : List UInt8)
    (notJson notCanonical : CogniError) : Except CogniError Json := do
  let value ← orRaise ((Utf8.decode payload).bind (Json.loads Json.lastWins)) notJson
  require (value.isObj = true) notCanonical
  let canonical ← canonicalJsonBytes value
  require (canonical = payload ∧ value.floatsAll reprs = true) notCanonical
  .ok value

theorem canonicalDocument_encoding {reprs : FloatLit → Bool} {value : Json}
    {notJson notCanonical : CogniError} (hwell : value.WellFormed) (hobj : value.isObj = true)
    (hfloats : value.floatsAll reprs = true) (hlen : value.encoding.length ≤ maxFrameBytes) :
    canonicalDocument reprs value.encoding notJson notCanonical = .ok value := by
  unfold canonicalDocument
  refine bind_eq_ok.mpr ⟨value, orRaise_eq_ok.mpr ?_, require_bind_eq_ok.mpr ⟨hobj, ?_⟩⟩
  · exact Json.loads_encoding Json.keepsSorted_lastWins hwell
  · refine bind_eq_ok.mpr ⟨value.encoding, Json.boundedEncoding_eq_ok.mpr ⟨hlen, rfl⟩, ?_⟩
    exact require_bind_eq_ok.mpr ⟨⟨rfl, hfloats⟩, rfl⟩

/-! ## A stream -/

/-- `decode_frame_from_stream`. -/
def decodeFrameFromStream (reprs : FloatLit → Bool) (stream : List (List UInt8)) :
    Except CogniError Json := do
  let (header, stream) ← orRaise (readExact 4 [] stream)
    (error "Snapshot broker frame was truncated")
  let length := unpackLength header
  require (2 ≤ length ∧ length ≤ maxFrameBytes) (error "Snapshot broker frame length is invalid")
  let (payload, _) ← orRaise (readExact length [] stream)
    (error "Snapshot broker frame was truncated")
  canonicalDocument reprs payload (error "Snapshot broker frame is not valid JSON")
    (error "Snapshot broker frame is not canonical JSON")

/-! ## A socket that passes descriptors -/

/-- An item of ancillary data: descriptors, with the bytes that are left of an incomplete one, or
data of another kind. -/
inductive Ancillary
  | rights (descriptors : List ℕ) (incomplete : ℕ)
  | other

/-- What the first read returns beside its bytes. -/
structure Delivery where
  ancillary : List Ancillary
  /-- `MSG_TRUNC` or `MSG_CTRUNC`. -/
  truncated : Bool
  /-- `os.get_inheritable`. -/
  inheritable : ℕ → Bool

/-- The descriptors that have been delivered. -/
def Delivery.received (d : Delivery) : List ℕ :=
  d.ancillary.flatMap fun
    | .rights descriptors _ => descriptors
    | .other => []

/-- `ancillary_error`: the last one of the loop. -/
def ancillaryError (label : String) (ancillary : List Ancillary) : Option CogniError :=
  ancillary.foldl (fun found item => match item with
    | .rights descriptors incomplete =>
        if (descriptors = [] ∧ incomplete = 0) ∨ incomplete ≠ 0 then
          some (error ("Snapshot broker " ++ label ++ " descriptor data is malformed"))
        else found
    | .other => some (error ("Snapshot broker " ++ label ++
        " carried unsupported ancillary data"))) none

/-- The checks of the descriptors. -/
def checkDelivery (maximumDescriptors : ℕ) (label : String) (d : Delivery) :
    Except CogniError Unit := do
  match ancillaryError label d.ancillary with
  | some e => .error e
  | none => .ok ()
  require (d.truncated = false)
    (error ("Snapshot broker " ++ label ++ " or descriptor was truncated"))
  require (d.received.length ≤ maximumDescriptors)
    (error ("Snapshot broker " ++ label ++ " delivered too many descriptors"))
  require (d.received.any d.inheritable = false)
    (error ("Snapshot broker " ++ label ++ " descriptor was not close-on-exec"))

/-- The rest of a header of which the first read has returned `first`: one more read. -/
def completeHeader (first : List UInt8) (stream : List (List UInt8)) :
    List UInt8 × List (List UInt8) :=
  if first.length < 4 then
    (first ++ (read (4 - first.length) stream).1, (read (4 - first.length) stream).2)
  else (first, stream)

/-- `_receive_framed_json_with_fds`. -/
def receiveFramedJsonWithFds (reprs : FloatLit → Bool) (maximumDescriptors : ℕ) (label : String)
    (d : Delivery) (stream : List (List UInt8)) : Except CogniError (Json × List ℕ) := do
  let (first, stream) := read (maxFrameBytes + 4) stream
  checkDelivery maximumDescriptors label d
  let (first, stream) := completeHeader first stream
  require (4 ≤ first.length) (error ("Snapshot broker " ++ label ++ " was truncated"))
  let length := unpackLength (first.take 4)
  require (2 ≤ length ∧ length ≤ maxFrameBytes)
    (error ("Snapshot broker " ++ label ++ " length is invalid"))
  let (payload, _) ← orRaise (readExact length (first.drop 4) stream)
    (error ("Snapshot broker " ++ label ++ " was truncated"))
  require (payload.length = length)
    (error ("Snapshot broker " ++ label ++ " has trailing bytes"))
  let document ← canonicalDocument reprs payload
    (error ("Snapshot broker " ++ label ++ " is not JSON"))
    (error ("Snapshot broker " ++ label ++ " is not canonical JSON"))
  .ok (document, d.received)

/-! ## What is received -/

section Receive

variable {reprs : FloatLit → Bool} {value : Json} {frame : List UInt8}
  {stream : List (List UInt8)}

/-- What a document needs for its frame to be read as itself. -/
structure Framed (reprs : FloatLit → Bool) (value : Json) (frame : List UInt8) : Prop where
  wellFormed : value.WellFormed
  object : value.isObj = true
  floats : value.floatsAll reprs = true
  encoded : encodeFrame value = .ok frame

theorem Framed.size (hv : Framed reprs value frame) :
    2 ≤ value.encoding.length ∧ value.encoding.length ≤ maxFrameBytes := by
  refine ⟨?_, (encodeFrame_eq_ok.mp hv.encoded).1⟩
  have hobj := hv.object
  cases value with
  | obj fields =>
    cases fields with
    | nil => decide +kernel
    | cons p fields =>
      rw [Json.length_encoding_obj (by simp), Json.fieldsLength_cons p.1 p.2 fields,
        Json.keyLength]
      omega
  | _ => cases hobj

theorem Framed.frame_eq (hv : Framed reprs value frame) :
    frame = packLength value.encoding.length ++ value.encoding :=
  (encodeFrame_eq_ok.mp hv.encoded).2

theorem Framed.unpack (hv : Framed reprs value frame) :
    unpackLength (frame.take 4) = value.encoding.length := by
  have hsize := hv.size.2
  have hmax : maxFrameBytes = 16777216 := rfl
  rw [hv.frame_eq]
  exact unpackLength_packLength (by omega)

theorem Framed.payload (hv : Framed reprs value frame) : frame.drop 4 = value.encoding := by
  rw [hv.frame_eq]
  rfl

theorem Framed.length (hv : Framed reprs value frame) :
    frame.length = value.encoding.length + 4 := by
  rw [hv.frame_eq, List.length_append, add_comm]
  rfl

/-- **A stream gives the document back**, whatever its pieces are. -/
theorem decodeFrameFromStream_frame (hv : Framed reprs value frame) (hstream : Carrying stream)
    (hflat : stream.flatten = frame) : decodeFrameFromStream reprs stream = .ok value := by
  have hlen := hv.length
  have hsize := hv.size
  obtain ⟨rest, hheader, hrest, hleft⟩ := @ByteStream.readExact_eq_some _ 4 [] stream hstream
    (Nat.zero_le 4) (by rw [List.nil_append, hflat]; omega)
  rw [List.nil_append, hflat] at hheader hleft
  obtain ⟨last, hpayload, -, -⟩ := @ByteStream.readExact_eq_some _ value.encoding.length [] rest
    hrest (Nat.zero_le _) (by rw [List.nil_append, hleft, hv.payload])
  rw [List.nil_append, hleft, hv.payload, List.take_length] at hpayload
  unfold decodeFrameFromStream
  refine bind_eq_ok.mpr ⟨(frame.take 4, rest), orRaise_eq_ok.mpr hheader, ?_⟩
  simp only [hv.unpack]
  refine require_bind_eq_ok.mpr ⟨hsize, ?_⟩
  refine bind_eq_ok.mpr ⟨(value.encoding, last), orRaise_eq_ok.mpr hpayload, ?_⟩
  exact canonicalDocument_encoding hv.wellFormed hv.object hv.floats hsize.2

/-- The header takes the first two reads, and the rest of the frame is left. -/
theorem completeHeader_frame (hv : Framed reprs value frame) (hstream : Carrying stream)
    (hflat : stream.flatten = frame) :
    ∃ first rest, completeHeader (read (maxFrameBytes + 4) stream).1
        (read (maxFrameBytes + 4) stream).2 = (first, rest) ∧
      first ++ rest.flatten = frame ∧ Carrying rest ∧
      (4 ≤ first.length ↔ 4 ≤ (stream.take 2).flatten.length) := by
  have hlen := hv.length
  have hsize := hv.size
  -- No piece is longer than the first read asks for.
  cases stream with
  | nil =>
    rw [List.flatten_nil] at hflat
    rw [← hflat] at hlen
    cases hlen
  | cons c cs =>
    have hc : c.length ≤ maxFrameBytes + 4 := by
      have hle : c.length ≤ frame.length := by
        rw [← hflat, List.flatten_cons, List.length_append]
        omega
      omega
    rw [ByteStream.read_whole cs hc]
    unfold completeHeader
    by_cases hshort : c.length < 4
    · rw [if_pos hshort]
      refine ⟨_, _, rfl, ?_, hstream.tail.read, ?_⟩
      · rw [List.append_assoc, ByteStream.read_flatten, ← hflat, List.flatten_cons]
      · cases cs with
        | nil =>
          have hfirst : (read (4 - c.length) ([] : List (List UInt8))).1 = [] := rfl
          rw [hfirst, List.append_nil]
          simp
        | cons d cs =>
          have hfirst : (read (4 - c.length) (d :: cs)).1 = d.take (4 - c.length) := rfl
          rw [hfirst, List.length_append, List.length_take]
          simp only [List.take_succ_cons, List.take_zero, List.flatten_cons, List.flatten_nil,
            List.append_nil, List.length_append]
          omega
    · rw [if_neg hshort]
      refine ⟨c, cs, rfl, hflat, hstream.tail, iff_of_true (by omega) ?_⟩
      rw [List.take_succ_cons, List.flatten_cons, List.length_append]
      omega

/-- **A socket gives the document back** where its first two pieces hold the header. -/
theorem receiveFramedJsonWithFds_frame {maximumDescriptors : ℕ} {label : String} {d : Delivery}
    (hv : Framed reprs value frame) (hstream : Carrying stream) (hflat : stream.flatten = frame)
    (hd : checkDelivery maximumDescriptors label d = .ok ()) :
    receiveFramedJsonWithFds reprs maximumDescriptors label d stream = .ok (value, d.received) ↔
      4 ≤ (stream.take 2).flatten.length := by
  obtain ⟨first, rest, hheader, hwhole, hrest, hfour⟩ := completeHeader_frame hv hstream hflat
  have hlen := hv.length
  have hsize := hv.size
  rw [← hfour]
  unfold receiveFramedJsonWithFds
  simp only [hd, hheader]
  constructor
  · intro hok
    obtain ⟨_, -, hok⟩ := bind_eq_ok.mp hok
    exact (require_bind_eq_ok.mp hok).1
  · intro hlong
    have htake : first.take 4 = frame.take 4 := by
      rw [← hwhole, List.take_append_of_le_length hlong]
    have hdrop : first.drop 4 ++ rest.flatten = value.encoding := by
      rw [← hv.payload, ← hwhole, List.drop_append_of_le_length hlong]
    have hpayload : (first.drop 4).length ≤ value.encoding.length := by
      rw [← hdrop, List.length_append]
      omega
    obtain ⟨last, hexact, -, -⟩ := ByteStream.readExact_eq_some hrest hpayload
      (by rw [hdrop])
    rw [hdrop, List.take_length] at hexact
    refine bind_eq_ok.mpr ⟨(), rfl, require_bind_eq_ok.mpr ⟨hlong, ?_⟩⟩
    simp only [htake, hv.unpack]
    refine require_bind_eq_ok.mpr ⟨hsize, ?_⟩
    refine bind_eq_ok.mpr ⟨(value.encoding, last), orRaise_eq_ok.mpr hexact, ?_⟩
    refine require_bind_eq_ok.mpr ⟨rfl, bind_eq_ok.mpr ⟨value, ?_, rfl⟩⟩
    exact canonicalDocument_encoding hv.wellFormed hv.object hv.floats hsize.2

end Receive

/-- **Where both paths return the document that was sent.**  The stream always does; the socket
does where the header has come with its first two pieces. -/
theorem receive_paths_iff (reprs : FloatLit → Bool) (value : Json) (frame : List UInt8)
    (stream : List (List UInt8)) (maximumDescriptors : ℕ) (label : String) (d : Delivery)
    (hv : Framed reprs value frame) (hstream : Carrying stream) (hflat : stream.flatten = frame)
    (hd : checkDelivery maximumDescriptors label d = .ok ()) :
    (decodeFrameFromStream reprs stream = .ok value ∧
      receiveFramedJsonWithFds reprs maximumDescriptors label d stream =
        .ok (value, d.received)) ↔ 4 ≤ (stream.take 2).flatten.length := by
  rw [receiveFramedJsonWithFds_frame hv hstream hflat hd,
    and_iff_right (decodeFrameFromStream_frame hv hstream hflat)]

/-! ## An empty object -/

/-- The frame of an empty object. -/
def emptyFrame : List UInt8 := [0, 0, 0, 2, 123, 125]

theorem framed_empty : Framed (fun _ => true) (.obj []) emptyFrame :=
  ⟨⟨by decide, trivial⟩, rfl, rfl, by decide +kernel⟩

/-- A delivery without descriptors. -/
def noDescriptors : Delivery := ⟨[], false, fun _ => false⟩

/-- The frame in one piece, and in a piece for each byte. -/
theorem receive_paths_iff_empty :
    receiveFramedJsonWithFds (fun _ => true) 0 "request" noDescriptors [emptyFrame] =
        .ok (.obj [], []) ∧
      receiveFramedJsonWithFds (fun _ => true) 0 "request" noDescriptors
        (emptyFrame.map fun b => [b]) ≠ .ok (.obj [], []) := by
  constructor
  · exact ((receive_paths_iff (fun _ => true) (.obj []) emptyFrame [emptyFrame] 0 "request"
      noDescriptors framed_empty (by simp [Carrying, emptyFrame]) (by simp) rfl).mpr
        (by decide)).2
  · intro hok
    have hstream : Carrying (emptyFrame.map fun b => [b]) := by simp [Carrying, emptyFrame]
    have hflat : (emptyFrame.map fun b => [b]).flatten = emptyFrame := by decide
    have hfour := (receive_paths_iff (fun _ => true) (.obj []) emptyFrame _ 0 "request"
      noDescriptors framed_empty hstream hflat rfl).mp
        ⟨decodeFrameFromStream_frame framed_empty hstream hflat, hok⟩
    revert hfour
    decide

/-- A header that comes byte by byte is given up. -/
theorem receive_paths_bytewise :
    ¬∀ (reprs : FloatLit → Bool) (value : Json) (frame : List UInt8) (stream : List (List UInt8))
      (maximumDescriptors : ℕ) (label : String) (d : Delivery), Framed reprs value frame →
      Carrying stream → stream.flatten = frame →
      checkDelivery maximumDescriptors label d = .ok () →
      decodeFrameFromStream reprs stream = .ok value ∧
        receiveFramedJsonWithFds reprs maximumDescriptors label d stream =
          .ok (value, d.received) := by
  intro hall
  have hok := (hall (fun _ => true) (.obj []) emptyFrame (emptyFrame.map fun b => [b]) 0 "request"
    noDescriptors framed_empty (by simp [Carrying, emptyFrame]) (by decide) rfl).2
  have herror : receiveFramedJsonWithFds (fun _ => true) 0 "request" noDescriptors
      (emptyFrame.map fun b => [b]) =
      .error (error "Snapshot broker request was truncated") := by decide +kernel
  rw [herror] at hok
  cases hok

end SnapshotBroker
