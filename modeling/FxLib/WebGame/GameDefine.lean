import FxLib.Meta.NetStream

/-!
# Messages of the game server

`ProtoUtility::MakeProtoSendBuffer` of `gamedefine.h`, and the part of `CPlayerSession::OnRecv` that
takes such a buffer apart. None of the writes is asked whether it succeeded, and the function has
no result of its own.
-/

namespace ProtoUtility

open CNetStream WriteStream Codec

/-- What is asked of a `google::protobuf::Message`. -/
structure Message where
  getTypeName : List UInt8
  serializeAsString : List UInt8

def dwBuffLen : Nat := 64 * 1024

/-- `WriteString`, whose result is not asked for: when the text does not fit, its length has been
written already. -/
def writeString (o : HostOrder) (refStr : List UInt8) (s : WriteStream) : WriteStream :=
  match writeInt o (.ofNat refStr.length) s with
  | none => s
  | some (_, s) => s.attempt (writeData refStr (refStr.length % 4294967296))

/-- The buffer, which is `static`, and `dwLen`. -/
def makeProtoSendBuffer (o : HostOrder) (pBuf : Mem) (refMsg : Message) : Mem × Nat :=
  let oStream : WriteStream := ⟨pBuf, 0, dwBuffLen, by decide⟩
  let oStream := writeString o refMsg.getTypeName oStream
  let szInfo := refMsg.serializeAsString
  let oStream := oStream.attempt (writeData szInfo (szInfo.length % 4294967296))
  (oStream.mem, dwBuffLen - oStream.dwLen)

/-- `ReadString` into an empty `std::string`, whose result is not asked for either. -/
def readString (o : HostOrder) (s : CNetStream) : List UInt8 × CNetStream :=
  match readUInt32 o s with
  | none => ([], s)
  | some (dwStrLen, s) =>
    match readBytes dwStrLen.toNat s with
    | none => ([], s)
    | some (refStr, s) => (refStr, s)

/-- The name and the data that `OnRecv` hands to the dispatch. -/
def onRecv (o : HostOrder) (pBuf : Mem) (dwLen : Nat) : List UInt8 × List UInt8 :=
  let (szProtocolName, oStream) := readString o ⟨pBuf, dwLen⟩
  (szProtocolName, oStream.content)

/-! ### What is sent -/

/-- The name, or only its length. -/
def sentName (szName : List UInt8) : List UInt8 :=
  ByteOrder.bytes 4 (UInt32.ofNat szName.length).toNat ++
    if (cut szName).length ≤ dwBuffLen - 4 then cut szName else []

def sentInfo (szName szInfo : List UInt8) : List UInt8 :=
  if (cut szInfo).length ≤ dwBuffLen - (sentName szName).length then cut szInfo else []

theorem sentName_length (szName : List UInt8) :
    4 ≤ (sentName szName).length ∧ (sentName szName).length ≤ dwBuffLen := by
  rw [sentName, List.length_append, ByteOrder.bytes_length, dwBuffLen]
  split_ifs with hfits
  · omega
  · simp

theorem encodes_cut (refStr : List UInt8) :
    Encodes put (writeData refStr (refStr.length % 4294967296)) (cut refStr) := fun _ => rfl

/-- A block for which there is no room is left out. -/
theorem put_attempt_if {refStr : List UInt8} {s : WriteStream} :
    put (if (cut refStr).length ≤ s.dwLen then cut refStr else []) s =
      some (s.attempt (writeData refStr (refStr.length % 4294967296))) := by
  by_cases hroom : (cut refStr).length ≤ s.dwLen
  · rw [if_pos hroom]
    exact put_attempt (encodes_cut refStr) hroom
  · rw [if_neg hroom, attempt_of_lt (encodes_cut refStr) (Nat.lt_of_not_le hroom)]
    exact appends_put.nil s

theorem put_writeString (o : HostOrder) (refStr : List UInt8) {s : WriteStream}
    (h : s.dwLen = dwBuffLen) : put (sentName refStr) s = some (writeString o refStr s) := by
  have hint := encodes_writeInt o (.ofNat refStr.length) s
  obtain ⟨s', hs', hlen⟩ := put_eq_some
    (show (ByteOrder.bytes 4 (UInt32.ofNat refStr.length).toNat).length ≤ s.dwLen by
      rw [h, ByteOrder.bytes_length]
      decide)
  rw [ByteOrder.bytes_length, h] at hlen
  rw [hs'] at hint
  rw [writeString, hint, sentName, appends_put.append, hs', Option.bind_some, ← hlen]
  exact put_attempt_if

/-- The buffer holds the name, if it fits, and behind it the serialization, if that fits too. -/
theorem sent_eq (o : HostOrder) (pBuf : Mem) (refMsg : Message) :
    Memory.read (makeProtoSendBuffer o pBuf refMsg).1 0 (makeProtoSendBuffer o pBuf refMsg).2 =
      sentName refMsg.getTypeName ++ sentInfo refMsg.getTypeName refMsg.serializeAsString := by
  have hname := put_writeString o refMsg.getTypeName
    (s := ⟨pBuf, 0, dwBuffLen, by decide⟩) rfl
  obtain ⟨s', hs', hlen⟩ := put_eq_some (s := ⟨pBuf, 0, dwBuffLen, by decide⟩)
    (sentName_length refMsg.getTypeName).2
  rw [hname] at hs'
  obtain rfl := Option.some.inj hs'
  have hall := appends_put.append (sentName refMsg.getTypeName)
    (sentInfo refMsg.getTypeName refMsg.serializeAsString) ⟨pBuf, 0, dwBuffLen, by decide⟩
  rw [hname, Option.bind_some, sentInfo] at hall
  rw [show dwBuffLen - (sentName refMsg.getTypeName).length = _ from hlen.symm,
    put_attempt_if] at hall
  rw [sentInfo, show dwBuffLen - (sentName refMsg.getTypeName).length = _ from hlen.symm]
  exact (produced_put hall).1

/-! ### What is received -/

theorem content_length (s : CNetStream) : s.content.length = s.dwLen := Memory.read_length _ _ _

/-- The length in front of the name is read, and what follows is left. -/
theorem readUInt32_sent (o : HostOrder) {s : CNetStream} {szName rest : List UInt8}
    (hs : s.content = sentName szName ++ rest) :
    ∃ s', readUInt32 o s = some (.ofNat szName.length, s') ∧
      s'.content = (if (cut szName).length ≤ dwBuffLen - 4 then cut szName else []) ++ rest := by
  rw [sentName, List.append_assoc] at hs
  exact decodes_readUInt32 o _ s _ hs

theorem length_eq (szName : List UInt8) :
    (cut szName).length = (UInt32.ofNat szName.length).toNat := by
  rw [cut_length]
  simp

/-- A name that is there is read, and the rest is the data. -/
theorem onRecv_whole (o : HostOrder) {pBuf : Mem} {dwLen : Nat} {szName rest : List UInt8}
    (hfits : (cut szName).length ≤ dwBuffLen - 4)
    (hsent : Memory.read pBuf 0 dwLen = sentName szName ++ rest) :
    onRecv o pBuf dwLen = (cut szName, rest) := by
  obtain ⟨s', hint, hs'⟩ := readUInt32_sent o (s := ⟨pBuf, dwLen⟩) hsent
  rw [if_pos hfits] at hs'
  obtain ⟨s'', hread, hs''⟩ := decodes_readBytes (length_eq szName) s' rest hs'
  simp only [onRecv, readString, hint, hread, hs'']

/-- Without the name no name is read: what follows the length is shorter than it says. -/
theorem onRecv_missing (o : HostOrder) {pBuf : Mem} {dwLen : Nat} {szName rest : List UInt8}
    (hfits : ¬ (cut szName).length ≤ dwBuffLen - 4) (hrest : rest.length ≤ dwBuffLen - 4)
    (hsent : Memory.read pBuf 0 dwLen = sentName szName ++ rest) :
    (onRecv o pBuf dwLen).1 = [] := by
  obtain ⟨s', hint, hs'⟩ := readUInt32_sent o (s := ⟨pBuf, dwLen⟩) hsent
  rw [if_neg hfits, List.nil_append] at hs'
  have hlen : s'.dwLen < (UInt32.ofNat szName.length).toNat := by
    rw [← content_length, hs', ← length_eq]
    omega
  have hread : readBytes (UInt32.ofNat szName.length).toNat s' = none := by
    simp only [readBytes, readData, if_pos hlen]
  simp only [onRecv, readString, hint, hread]

/-! ### The receiver gets the message -/

/-- Whole names and whole serializations arrive, and nothing tells the sender about others: the
function is faithful if and only if the message fits the buffer. -/
theorem makeProtoSendBuffer_faithful_iff (o o' : HostOrder) (pBuf : Mem) (refMsg : Message) :
    onRecv o' (makeProtoSendBuffer o pBuf refMsg).1 (makeProtoSendBuffer o pBuf refMsg).2 =
        (refMsg.getTypeName, refMsg.serializeAsString) ↔
      4 + refMsg.getTypeName.length + refMsg.serializeAsString.length ≤ dwBuffLen := by
  have hsent := sent_eq o pBuf refMsg
  obtain ⟨szName, szInfo⟩ := refMsg
  have hsize : dwBuffLen = 65536 := rfl
  have hnameLen := cut_length szName
  have hinfoLen := cut_length szInfo
  simp only at hsent ⊢
  by_cases hfits : (cut szName).length ≤ dwBuffLen - 4
  · rw [onRecv_whole o' hfits hsent, Prod.mk.injEq, cut_eq_iff, sentInfo]
    have hlen : (sentName szName).length = 4 + (cut szName).length := by
      rw [sentName, if_pos hfits, List.length_append, ByteOrder.bytes_length]
    constructor
    · rintro ⟨hname, hinfo⟩
      split_ifs at hinfo with hroom
      · have hwhole := (cut_eq_iff szInfo).mp hinfo
        omega
      · subst hinfo
        exact absurd (Nat.zero_le _) hroom
    · intro hle
      have hname : szName.length < 4294967296 := by omega
      have hinfo : szInfo.length < 4294967296 := by omega
      refine ⟨hname, ?_⟩
      rw [if_pos (by omega), (cut_eq_iff szInfo).mpr hinfo]
  · refine iff_of_false (fun hwhole => ?_) (by omega)
    have hrest : (sentInfo szName szInfo).length ≤ dwBuffLen - 4 := by
      have hge := (sentName_length szName).1
      rw [sentInfo]
      split_ifs
      · omega
      · exact Nat.zero_le _
    have hempty := onRecv_missing o' hfits hrest hsent
    rw [hwhole] at hempty
    have hnil : szName = [] := hempty
    subst hnil
    exact hfits (Nat.zero_le _)

/-- A message of which only the name is sent: it looks like one with no fields set. -/
theorem makeProtoSendBuffer_drops :
    let refMsg : Message := ⟨[65], List.replicate 65532 1⟩
    let sent := makeProtoSendBuffer .little (fun _ => 0) refMsg
    onRecv .little sent.1 sent.2 = ([65], []) ∧
      onRecv .little sent.1 sent.2 ≠ (refMsg.getTypeName, refMsg.serializeAsString) := by
  intro refMsg sent
  have hsent := sent_eq .little (fun _ => 0) refMsg
  have hempty : sentInfo [65] (List.replicate 65532 1) = [] := by
    rw [sentInfo, if_neg]
    rw [cut_length, List.length_replicate]
    decide
  rw [show sentInfo refMsg.getTypeName refMsg.serializeAsString = [] from hempty] at hsent
  have hrecv : onRecv .little sent.1 sent.2 = ([65], []) := onRecv_whole .little (by decide) hsent
  refine ⟨hrecv, fun hwhole => ?_⟩
  rw [hrecv] at hwhole
  have hlen : (List.replicate 65532 (1 : UInt8)).length = 0 :=
    (congrArg List.length (Prod.mk.inj hwhole).2).symm
  rw [List.length_replicate] at hlen
  omega

end ProtoUtility
