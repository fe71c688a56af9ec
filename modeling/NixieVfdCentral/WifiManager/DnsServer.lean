import NixieVfdCentral.Foundations.CheckedAccess
import NixieVfdCentral.Foundations.DnsMessages
import NixieVfdCentral.Uart.Protocol

/-!
# The DNS server of the access point

While the access point is started, the task `dns_server` answers every query with the address of
the access point. It copies the query into the buffer of the response, changes the header and puts
one resource record behind it. The accesses to both buffers are checked: whoever is near the
access point can send a datagram of any length.
-/

namespace NixieVfdCentral

open Buffers CheckedAccess DnsMessages

/-- `DNS_QUERY_MAX_SIZE`. -/
def dnsQueryMaxSize : ℕ := 80

/-- `DNS_ANSWER_MAX_SIZE`. -/
def dnsAnswerMaxSize : ℕ := dnsQueryMaxSize + 16

/-- `sizeof(dns_header_t)`. -/
def sizeofDnsHeader : ℕ := 12

/-- `sizeof(dns_answer_t)`. -/
def sizeofDnsAnswer : ℕ := 16

/-- `dns_header_t`. The fields of two bytes are in the order of the network. -/
structure DnsHeader where
  /-- `ID`. -/
  id : UInt16
  /-- `RD`. -/
  rd : BitVec 1
  /-- `TC`. -/
  tc : BitVec 1
  /-- `AA`. -/
  aa : BitVec 1
  /-- `OPCode`. -/
  opCode : BitVec 4
  /-- `QR`. -/
  qr : BitVec 1
  /-- `RCode`. -/
  rCode : BitVec 4
  /-- `Z`. -/
  z : BitVec 3
  /-- `RA`. -/
  ra : BitVec 1
  /-- `QDCount`. -/
  qdCount : UInt16
  /-- `ANCount`. -/
  anCount : UInt16
  /-- `NSCount`. -/
  nsCount : UInt16
  /-- `ARCount`. -/
  arCount : UInt16

namespace DnsHeader

/-- The memory image: the first bit field of a byte is in its lowest bits. -/
def toBytes (h : DnsHeader) : Bytes :=
  littleEndian h.id ++ [.ofBitVec (h.qr ++ h.opCode ++ h.aa ++ h.tc ++ h.rd)] ++
    [.ofBitVec (h.ra ++ h.z ++ h.rCode)] ++ littleEndian h.qdCount ++ littleEndian h.anCount ++
    littleEndian h.nsCount ++ littleEndian h.arCount

/-- The header whose memory image starts the given bytes. -/
def ofBytes (bytes : Bytes) : DnsHeader where
  id := ofLittleEndian (bytes.getD 0 0) (bytes.getD 1 0)
  rd := (bytes.getD 2 0).toBitVec.extractLsb' 0 1
  tc := (bytes.getD 2 0).toBitVec.extractLsb' 1 1
  aa := (bytes.getD 2 0).toBitVec.extractLsb' 2 1
  opCode := (bytes.getD 2 0).toBitVec.extractLsb' 3 4
  qr := (bytes.getD 2 0).toBitVec.extractLsb' 7 1
  rCode := (bytes.getD 3 0).toBitVec.extractLsb' 0 4
  z := (bytes.getD 3 0).toBitVec.extractLsb' 4 3
  ra := (bytes.getD 3 0).toBitVec.extractLsb' 7 1
  qdCount := ofLittleEndian (bytes.getD 4 0) (bytes.getD 5 0)
  anCount := ofLittleEndian (bytes.getD 6 0) (bytes.getD 7 0)
  nsCount := ofLittleEndian (bytes.getD 8 0) (bytes.getD 9 0)
  arCount := ofLittleEndian (bytes.getD 10 0) (bytes.getD 11 0)

/-- The header of the response, from that of the query. -/
def response (h : DnsHeader) : DnsHeader :=
  { h with
    qr := 1
    opCode := 0
    aa := 1
    rCode := 0
    tc := 0
    rd := 0
    anCount := h.qdCount
    nsCount := 0
    arCount := 0 }

end DnsHeader

/-- `dns_answer_t`. -/
structure DnsAnswer where
  /-- `NAME`. -/
  name : UInt16
  /-- `TYPE`. -/
  type : UInt16
  /-- `CLASS`. -/
  class_ : UInt16
  /-- `TTL`. -/
  ttl : UInt32
  /-- `RDLENGTH`. -/
  rdLength : UInt16
  /-- `RDATA`. -/
  rdata : UInt32

/-- The four bytes of a `uint32_t`, low byte first. -/
def littleEndianWord (x : UInt32) : Bytes :=
  [x.toUInt8, (x >>> 8).toUInt8, (x >>> 16).toUInt8, (x >>> 24).toUInt8]

/-- The memory image of an answer. -/
def DnsAnswer.toBytes (a : DnsAnswer) : Bytes :=
  littleEndian a.name ++ littleEndian a.type ++ littleEndian a.class_ ++ littleEndianWord a.ttl ++
    littleEndian a.rdLength ++ littleEndianWord a.rdata

/-- `__bswap_16`. -/
def bswap16 (x : UInt16) : UInt16 := x <<< 8 ||| x >>> 8

/-- `DEFAULT_AP_IP`, as `inet_pton` leaves it in `ip_resolved`: the bytes are 10, 10, 0 and 1. -/
def ipResolved : UInt32 := 0x01000A0A

/-- The answer, which is the same to every query. -/
def dnsAnswer : DnsAnswer where
  name := bswap16 0xC00C
  type := bswap16 1
  class_ := bswap16 1
  ttl := 0
  rdLength := bswap16 0x0004
  rdata := ipResolved

/-- The response to a query: a changed copy and the answer behind it. -/
def dnsResponse (query : Bytes) : Bytes :=
  (DnsHeader.ofBytes query).response.toBytes ++ query.drop sizeofDnsHeader ++ dnsAnswer.toBytes

/-- The task `dns_server`. -/
structure DnsServer where
  /-- `response`. -/
  response : Vector UInt8 dnsAnswerMaxSize
  /-- The datagrams given to `sendto`, in order. -/
  sent : List Bytes

namespace DnsServer

/-- The loop that makes the domain name printable, from `*c` on. -/
def maskDomain : ℕ → Vector UInt8 dnsQueryMaxSize → ℕ →
    Except Fault (Vector UInt8 dnsQueryMaxSize)
  | 0, _, _ => .error .endless
  | fuel + 1, data, c => do
    checkRange c 1 dnsQueryMaxSize
    let character := data.toList.getD c 0
    if character = 0 then return data
    else if character < 0x20 ∨ 0x7A < character then
      maskDomain fuel (overwrite data c [0x2E]) (c + 1)
    else maskDomain fuel data (c + 1)

/-- `data` after `memset` and `recvfrom`, with the zero behind the query. -/
def queryData (received : Bytes) : Vector UInt8 dnsQueryMaxSize :=
  overwrite (overwrite (Vector.replicate dnsQueryMaxSize 0) 0 received) received.length [0]

/-- `response` after the header was copied and changed. -/
def copyHeader (response : Vector UInt8 dnsAnswerMaxSize) (data : Vector UInt8 dnsQueryMaxSize) :
    Vector UInt8 dnsAnswerMaxSize :=
  let response := overwrite response 0 (slice data 0 sizeofDnsHeader)
  let header := DnsHeader.ofBytes (slice response 0 sizeofDnsHeader)
  overwrite response 0 header.response.toBytes

/-- One round of the loop of `dns_server`. `recvfrom` cuts off what does not fit in `data`. -/
def round (s : DnsServer) (datagram : Bytes) : Except Fault DnsServer :=
  let received := datagram.take dnsQueryMaxSize
  let length := received.length
  if 0 < length ∧ length + sizeofDnsAnswer - 1 < dnsAnswerMaxSize then do
    checkRange length 1 dnsQueryMaxSize
    let data := queryData received
    let response := copyHeader s.response data
    let rest ← checkedSub length sizeofDnsHeader
    checkRange sizeofDnsHeader rest dnsQueryMaxSize
    checkRange sizeofDnsHeader rest dnsAnswerMaxSize
    let response := overwrite response sizeofDnsHeader (slice data sizeofDnsHeader rest)
    let _ ← maskDomain (dnsQueryMaxSize + 1) data (sizeofDnsHeader + 1)
    checkRange length sizeofDnsAnswer dnsAnswerMaxSize
    let response := overwrite response length dnsAnswer.toBytes
    checkRange 0 (length + sizeofDnsAnswer) dnsAnswerMaxSize
    return ⟨response, s.sent ++ [slice response 0 (length + sizeofDnsAnswer)]⟩
  else return s

/-- The rounds for some datagrams. -/
def serve (s : DnsServer) (datagrams : List Bytes) : Except Fault DnsServer :=
  datagrams.foldlM round s

/-- What goes wrong in the round for a datagram: the number of bytes behind the header wraps
around, or the zero is written behind the buffer. -/
def fault (datagram : Bytes) : Option Fault :=
  if datagram = [] then none
  else if datagram.length < sizeofDnsHeader then some .wraps
  else if dnsQueryMaxSize ≤ datagram.length then some .outOfRange
  else none

variable {s : DnsServer} {datagram query : Bytes} {data : Vector UInt8 dnsQueryMaxSize} {c : ℕ}

/-! ### The buffers -/

/-- The loop that masks the labels ends at a zero, if one is behind its position. -/
theorem maskDomain_ok (fuel : ℕ) (hzero : 0 ∈ data.toList.drop c)
    (hfuel : dnsQueryMaxSize < c + fuel) : ∃ data', maskDomain fuel data c = .ok data' := by
  have hc : c < data.toList.length := by
    by_contra hle
    rw [List.drop_of_length_le (Nat.not_lt.mp hle)] at hzero
    cases hzero
  rw [Vector.length_toList] at hc
  induction fuel generalizing data c with
  | zero => omega
  | succ fuel ih =>
    have hdrop : data.toList.drop c = data.toList.getD c 0 :: data.toList.drop (c + 1) := by
      rw [List.drop_eq_getElem_cons (by simpa using hc)]
      simp [List.getD_eq_getElem?_getD, hc]
    have hmasked : (overwrite data c [0x2E]).toList.drop (c + 1) = data.toList.drop (c + 1) := by
      rw [toList_overwrite data hc]
      exact List.drop_left' (by simp [Nat.le_of_lt hc])
    rw [maskDomain, checkRange_of_le hc, ok_bind]
    by_cases hend : data.toList.getD c 0 = 0
    · exact ⟨data, if_pos hend⟩
    · rw [hdrop, List.mem_cons] at hzero
      have hrest := hzero.resolve_left fun h => hend h.symm
      have hinside : c + 1 < data.toList.length := by
        by_contra hle
        rw [List.drop_of_length_le (Nat.not_lt.mp hle)] at hrest
        cases hrest
      rw [Vector.length_toList] at hinside
      rw [if_neg hend]
      split
      · exact ih (hmasked.symm ▸ hrest) (by omega) (by simpa using hinside)
      · exact ih hrest (by omega) (by simpa using hinside)

/-- A header is read from the bytes of a header only. -/
theorem ofBytes_take :
    DnsHeader.ofBytes (query.take sizeofDnsHeader) = DnsHeader.ofBytes query := by
  simp [DnsHeader.ofBytes, sizeofDnsHeader, List.getD_eq_getElem?_getD]

/-- The memory image of a header has the size of the packed structure. -/
@[simp] theorem length_toBytes (h : DnsHeader) : h.toBytes.length = sizeofDnsHeader := rfl

/-- The memory image of the answer has the size of the packed structure. -/
theorem length_dnsAnswer : dnsAnswer.toBytes.length = sizeofDnsAnswer := rfl

/-- The query has a zero behind it. -/
theorem toList_queryData (hmax : query.length < dnsQueryMaxSize) : (queryData query).toList =
    query ++ List.replicate (dnsQueryMaxSize - query.length) 0 := by
  have hone : dnsQueryMaxSize - query.length = dnsQueryMaxSize - (query.length + 1) + 1 := by omega
  rw [queryData, toList_overwrite _ hmax, toList_overwrite_replicate 0 (Nat.le_of_lt hmax),
    List.take_left' rfl, List.length_singleton, List.append_assoc, ← List.drop_drop,
    List.drop_left' rfl, hone, List.replicate_succ]
  rfl

/-- A query that is short enough has a zero behind it, so the domain name in the buffer ends. -/
theorem zero_mem_domain (hmax : query.length < dnsQueryMaxSize) :
    0 ∈ (queryData query).toList.drop (sizeofDnsHeader + 1) := by
  rw [toList_queryData hmax, List.drop_append, List.drop_replicate, List.mem_append,
    List.mem_replicate]
  unfold dnsQueryMaxSize at hmax
  unfold sizeofDnsHeader dnsQueryMaxSize
  exact .inr ⟨by omega, rfl⟩

/-- The response begins with the header of the query, changed to that of a response. -/
theorem take_copyHeader (response : Vector UInt8 dnsAnswerMaxSize)
    (hmin : sizeofDnsHeader ≤ query.length) (hmax : query.length < dnsQueryMaxSize) :
    (copyHeader response (queryData query)).toList.take sizeofDnsHeader =
      (DnsHeader.ofBytes query).response.toBytes := by
  have hhead : slice (queryData query) 0 sizeofDnsHeader = query.take sizeofDnsHeader := by
    rw [slice, toList_queryData hmax, List.drop_zero, List.take_append_of_le_length hmin]
  have hlength : (query.take sizeofDnsHeader).length = sizeofDnsHeader :=
    List.length_take_of_le hmin
  have hcopied : slice (overwrite response 0 (query.take sizeofDnsHeader)) 0 sizeofDnsHeader =
      query.take sizeofDnsHeader := by
    have htake := @take_overwrite _ _ response 0 (query.take sizeofDnsHeader)
      (by rw [hlength]; decide)
    rw [hlength] at htake
    simpa [slice] using htake
  have htake := @take_overwrite _ _ (overwrite response 0 (query.take sizeofDnsHeader)) 0
    (DnsHeader.ofBytes query).response.toBytes (by rw [length_toBytes]; decide)
  rw [copyHeader, hhead, hcopied, ofBytes_take]
  simpa using htake

/-- The rest of the query and the answer are behind the header. -/
theorem slice_response (response : Vector UInt8 dnsAnswerMaxSize)
    (hmin : sizeofDnsHeader ≤ query.length) (hmax : query.length < dnsQueryMaxSize) :
    slice (overwrite (overwrite (copyHeader response (queryData query)) sizeofDnsHeader
      (query.drop sizeofDnsHeader)) query.length dnsAnswer.toBytes) 0
        (query.length + sizeofDnsAnswer) = dnsResponse query := by
  have hlength : sizeofDnsHeader + (query.drop sizeofDnsHeader).length = query.length := by
    rw [List.length_drop]
    omega
  have hrest := @take_overwrite _ _ (copyHeader response (queryData query)) sizeofDnsHeader
    (query.drop sizeofDnsHeader) (by unfold dnsAnswerMaxSize; omega)
  rw [hlength, take_copyHeader response hmin hmax] at hrest
  have hanswer := @take_overwrite _ _ (overwrite (copyHeader response (queryData query))
    sizeofDnsHeader (query.drop sizeofDnsHeader)) query.length dnsAnswer.toBytes
    (by rw [length_dnsAnswer]; unfold sizeofDnsAnswer dnsAnswerMaxSize; omega)
  rw [hrest, length_dnsAnswer] at hanswer
  rw [slice, List.drop_zero, hanswer, dnsResponse]

/-- For a datagram that fits, the round sends the response to it and makes no fault. -/
theorem round_eq (hmin : sizeofDnsHeader ≤ query.length) (hmax : query.length < dnsQueryMaxSize) :
    ∃ response, s.round query = .ok ⟨response, s.sent ++ [dnsResponse query]⟩ := by
  have hreceived : query.take dnsQueryMaxSize = query := List.take_of_length_le (Nat.le_of_lt hmax)
  have hcondition : 0 < query.length ∧
      query.length + sizeofDnsAnswer - 1 < dnsAnswerMaxSize := by
    unfold sizeofDnsHeader at hmin
    unfold sizeofDnsAnswer dnsAnswerMaxSize
    omega
  have hzero : checkRange query.length 1 dnsQueryMaxSize = .ok () := checkRange_of_le hmax
  have hread : checkRange sizeofDnsHeader (query.length - sizeofDnsHeader) dnsQueryMaxSize =
      .ok () := checkRange_of_le (by omega)
  have hwrite : checkRange sizeofDnsHeader (query.length - sizeofDnsHeader) dnsAnswerMaxSize =
      .ok () := checkRange_of_le (by unfold dnsAnswerMaxSize; omega)
  have hroom : query.length + sizeofDnsAnswer ≤ dnsAnswerMaxSize := by
    unfold sizeofDnsAnswer dnsAnswerMaxSize
    omega
  have hanswer : checkRange query.length sizeofDnsAnswer dnsAnswerMaxSize = .ok () :=
    checkRange_of_le hroom
  have hsend : checkRange 0 (query.length + sizeofDnsAnswer) dnsAnswerMaxSize = .ok () :=
    checkRange_of_le (by omega)
  have hrest : slice (queryData query) sizeofDnsHeader (query.length - sizeofDnsHeader) =
      query.drop sizeofDnsHeader := by
    rw [slice_eq_drop_take, toList_queryData hmax, List.take_left' rfl]
  obtain ⟨data', hmask⟩ := maskDomain_ok (dnsQueryMaxSize + 1) (zero_mem_domain hmax) (by omega)
  refine ⟨overwrite (overwrite (copyHeader s.response (queryData query)) sizeofDnsHeader
    (query.drop sizeofDnsHeader)) query.length dnsAnswer.toBytes, ?_⟩
  simp only [round, hreceived, if_pos hcondition, hzero, ok_bind, checkedSub_of_le hmin, hread,
    hwrite, hrest, hmask, hanswer, hsend, slice_response s.response hmin hmax]
  rfl

/-- Nothing is sent for an empty datagram, and nothing else happens. -/
theorem round_nil : s.round [] = .ok s := rfl

/-- A datagram shorter than the header makes the number of the remaining bytes wrap around. -/
theorem round_short (hne : datagram ≠ []) (hmin : datagram.length < sizeofDnsHeader) :
    s.round datagram = .error .wraps := by
  unfold sizeofDnsHeader at hmin
  have hpos := List.length_pos_iff.mpr hne
  have hreceived : datagram.take dnsQueryMaxSize = datagram :=
    List.take_of_length_le (by unfold dnsQueryMaxSize; omega)
  have hcondition : 0 < datagram.length ∧
      datagram.length + sizeofDnsAnswer - 1 < dnsAnswerMaxSize := by
    unfold sizeofDnsAnswer dnsAnswerMaxSize dnsQueryMaxSize
    omega
  have hzero : checkRange datagram.length 1 dnsQueryMaxSize = .ok () :=
    checkRange_of_le (by unfold dnsQueryMaxSize; omega)
  have hrest : checkedSub datagram.length sizeofDnsHeader = .error .wraps :=
    if_neg (Nat.not_le.mpr hmin)
  simp only [round, hreceived, if_pos hcondition, hzero, ok_bind, hrest]
  rfl

/-- A datagram that fills the buffer leaves no place for the zero. -/
theorem round_long (hmax : dnsQueryMaxSize ≤ datagram.length) :
    s.round datagram = .error .outOfRange := by
  have hreceived : (datagram.take dnsQueryMaxSize).length = dnsQueryMaxSize :=
    List.length_take_of_le hmax
  have hcondition : 0 < dnsQueryMaxSize ∧
      dnsQueryMaxSize + sizeofDnsAnswer - 1 < dnsAnswerMaxSize := by decide
  have hzero : checkRange dnsQueryMaxSize 1 dnsQueryMaxSize = .error .outOfRange := rfl
  simp only [round, hreceived, if_pos hcondition, hzero]
  rfl

/-- One round, for any datagram: a response for one that fits, nothing for an empty one, else the
fault. -/
theorem round_cases (s : DnsServer) (datagram : Bytes) :
    fault datagram = none ∧ (∃ s', s.round datagram = .ok s' ∧
      s'.sent = s.sent ++ if datagram = [] then [] else [dnsResponse datagram]) ∨
    ∃ f, fault datagram = some f ∧ s.round datagram = .error f := by
  unfold fault
  split
  · rename_i hnil
    subst hnil
    exact .inl ⟨rfl, s, round_nil, (List.append_nil _).symm⟩
  · rename_i hne
    split
    · exact .inr ⟨_, rfl, round_short hne ‹_›⟩
    · split
      · exact .inr ⟨_, rfl, round_long ‹_›⟩
      · obtain ⟨response, hround⟩ := @round_eq s datagram (by omega) (by omega)
        exact .inl ⟨rfl, _, hround, rfl⟩

/-- As long as no datagram does harm, each that is not empty is answered. -/
theorem serve_eq_ok (s : DnsServer) {datagrams : List Bytes}
    (h : ∀ datagram ∈ datagrams, fault datagram = none) : ∃ s', s.serve datagrams = .ok s' ∧
      s'.sent = s.sent ++ (datagrams.filter (· ≠ [])).map dnsResponse := by
  induction datagrams generalizing s with
  | nil => exact ⟨s, rfl, (List.append_nil _).symm⟩
  | cons datagram datagrams ih =>
    obtain ⟨hdatagram, hrest⟩ := List.forall_mem_cons.mp h
    rcases round_cases s datagram with ⟨_, s₁, hround, hsent₁⟩ | ⟨f, hfault, _⟩
    · obtain ⟨s₂, hserve, hsent₂⟩ := ih s₁ hrest
      refine ⟨s₂, ?_, ?_⟩
      · rw [serve, List.foldlM_cons, hround, ok_bind]
        exact hserve
      · rw [hsent₂, hsent₁]
        by_cases hnil : datagram = []
        · simp [hnil]
        · simp [hnil]
    · rw [hdatagram] at hfault
      cases hfault

/-- **Every query is answered until one does harm.** For any series of datagrams, the server sends
one response for each that is not empty, and no byte of a response stems from another query. The
first datagram with fewer bytes than a header, or with eighty bytes or more, makes it leave its
buffers. -/
theorem serve_sent (s : DnsServer) (datagrams : List Bytes) :
    (s.serve datagrams).map sent = match datagrams.findSome? fault with
      | none => .ok (s.sent ++ (datagrams.filter (· ≠ [])).map dnsResponse)
      | some f => .error f := by
  cases hfirst : datagrams.findSome? fault with
  | none =>
    obtain ⟨s', hserve, hsent⟩ := s.serve_eq_ok (List.findSome?_eq_none_iff.mp hfirst)
    simp only [hserve, Except.map, hsent]
  | some f =>
    obtain ⟨before, datagram, after, rfl, hfault, hbefore⟩ :=
      List.findSome?_eq_some_iff.mp hfirst
    obtain ⟨s', hserve, _⟩ := s.serve_eq_ok hbefore
    have hround : s'.round datagram = .error f := by
      rcases round_cases s' datagram with ⟨hnone, _⟩ | ⟨f', hfault', hround⟩
      · rw [hnone] at hfault
        cases hfault
      · rw [hfault'] at hfault
        cases hfault
        exact hround
    rw [serve] at hserve ⊢
    rw [List.foldlM_append, hserve, ok_bind, List.foldlM_cons, hround]
    rfl

end DnsServer

/-! ### What a resolver reads -/

/-- The two bytes from which a number was read are its bytes. -/
theorem littleEndian_ofLittleEndian (low high : UInt8) :
    littleEndian (ofLittleEndian low high) = [low, high] := by
  have hlow := low.toNat_lt
  have hhigh := high.toNat_lt
  rw [littleEndian, toNat_ofLittleEndian]
  congr 1
  · apply UInt8.toNat_inj.mp
    rw [UInt8.toNat_ofNat']
    omega
  · congr 1
    apply UInt8.toNat_inj.mp
    rw [UInt8.toNat_ofNat']
    omega

/-- Of the second byte of flags, only the response code is changed. -/
theorem toNat_keptFlags (b : UInt8) : (UInt8.ofBitVec
    (b.toBitVec.extractLsb' 7 1 ++ b.toBitVec.extractLsb' 4 3 ++ (0 : BitVec 4))).toNat =
      b.toNat / 16 * 16 := by
  have hall : ∀ x : BitVec 8,
      (x.extractLsb' 7 1 ++ x.extractLsb' 4 3 ++ (0 : BitVec 4) : BitVec 8).toNat =
        x.toNat / 16 * 16 := by decide +kernel
  exact hall b.toBitVec

/-- The header of a response, from that of the query. -/
def responseHeader (h : Header) : Header :=
  { h with
    qr := true
    opcode := 0
    aa := true
    tc := false
    rd := false
    rcode := 0
    ancount := h.qdcount
    nscount := 0
    arcount := 0 }

/-- The fields that `dns_header_t` names are where a resolver looks for them. -/
theorem readHeader_dnsResponse {query : Bytes} {header : Header}
    (h : readHeader query = some header) :
    readHeader (dnsResponse query) = some (responseHeader header) := by
  unfold readHeader at h
  split at h
  · rename_i i i' f f' q q' a a' n n' r r' rest
    cases h
    let kept : UInt8 := .ofBitVec (f'.toBitVec.extractLsb' 7 1 ++ f'.toBitVec.extractLsb' 4 3 ++
      (0 : BitVec 4))
    have hbytes : (DnsHeader.ofBytes (i :: i' :: f :: f' :: q :: q' :: a :: a' :: n :: n' :: r ::
        r' :: rest)).response.toBytes = [i, i', 0x84, kept, q, q', q, q', 0, 0, 0, 0] := by
      simp only [DnsHeader.ofBytes, DnsHeader.response, DnsHeader.toBytes, List.getD_cons_zero,
        List.getD_cons_succ, littleEndian_ofLittleEndian]
      rfl
    have hkept : kept.toNat = f'.toNat / 16 * 16 := toNat_keptFlags f'
    have hra : kept.toNat / 128 = f'.toNat / 128 := by omega
    have hz : kept.toNat / 16 % 8 = f'.toNat / 16 % 8 := by omega
    have hrcode : kept.toNat % 16 = 0 := by omega
    rw [dnsResponse, hbytes]
    simp only [List.cons_append, readHeader, hra, hz, hrcode]
    rfl
  · cases h

/-- The changed copy of a query is as long as the query. -/
theorem length_copy {query : Bytes} (hmin : sizeofDnsHeader ≤ query.length) :
    ((DnsHeader.ofBytes query).response.toBytes ++ query.drop sizeofDnsHeader).length =
      query.length := by
  rw [List.length_append, DnsServer.length_toBytes, List.length_drop]
  omega

/-- The response is longer than the query by one answer. -/
theorem length_dnsResponse {query : Bytes} (hmin : sizeofDnsHeader ≤ query.length) :
    (dnsResponse query).length = query.length + sizeofDnsAnswer := by
  rw [dnsResponse, List.length_append, length_copy hmin, DnsServer.length_dnsAnswer]

/-- Behind the header a response begins with the bytes of its query. -/
theorem continues_dnsResponse {query : Bytes} (hmin : sizeofDnsHeader ≤ query.length) :
    Continues query (dnsResponse query) where
  length_le := by
    rw [length_dnsResponse hmin]
    exact Nat.le_add_right _ _
  drop_eq := by
    rw [dnsResponse, List.take_left' (length_copy hmin)]
    exact List.drop_left' rfl

/-- The record at the end of a response: its name is that of the first question. -/
theorem readRecord_dnsResponse {query : Bytes} {question : Question} {e : ℕ}
    (hmin : sizeofDnsHeader ≤ query.length)
    (hquestion : readQuestion query headerLength = some (question, e)) :
    readRecord (dnsResponse query) query.length =
      some (⟨question.name, 1, 1, 0, [10, 10, 0, 1]⟩, (dnsResponse query).length) := by
  have hbytes : ∀ i n, bytesAt (dnsResponse query) (query.length + i) n =
      bytesAt dnsAnswer.toBytes i n := by
    intro i n
    have happend := @bytesAt_append ((DnsHeader.ofBytes query).response.toBytes ++
      query.drop sizeofDnsHeader) dnsAnswer.toBytes n i
    rwa [length_copy hmin] at happend
  have hnumber : ∀ i n, numberAt (dnsResponse query) (query.length + i) n =
      numberAt dnsAnswer.toBytes i n := by
    intro i n
    rw [numberAt, hbytes, numberAt]
  have hlength : (dnsResponse query).length = query.length + 15 + 1 := length_dnsResponse hmin
  obtain ⟨⟨name, e'⟩, hname, hquestion⟩ := Option.bind_eq_some_iff.mp hquestion
  obtain ⟨qtype, _, hquestion⟩ := Option.bind_eq_some_iff.mp hquestion
  obtain ⟨qclass, _, hquestion⟩ := Option.bind_eq_some_iff.mp hquestion
  cases hquestion
  have hfirst := (continues_dnsResponse hmin).nameAt (Nat.le_refl _) (nameAt_of_readName hname)
    (Nat.le_add_right query.length 15)
  have hpointed : NameAt (dnsResponse query) (query.length + 15 + 1) query.length name
      (query.length + 2) := .pointer (hnumber 0 1) (by decide) (hnumber 0 2) (Nat.le_refl _) hfirst
  rw [readRecord, hlength, hpointed.readName]
  simp only [Option.bind_eq_bind, Option.bind_some, Nat.add_assoc, hnumber, hbytes]
  rfl

/-- What a resolver reads from the response: the questions and the records of the query, and behind
them one record more, with the name of the first question and the address of the access point. It
reads nothing unless the query has one question more than it has records. -/
def answered (message : Message) : Option Message :=
  match message.questions with
  | [] => none
  | question :: _ =>
    if message.questions.length = message.records.length + 1 then
      some ⟨responseHeader message.header, message.questions,
        message.records ++ [⟨question.name, 1, 1, 0, [10, 10, 0, 1]⟩]⟩
    else none

/-- A response is read as the answer to its query. -/
theorem readMessage_dnsResponse {query : Bytes} {message : Message}
    (h : readMessage query = some message) :
    readMessage (dnsResponse query) = answered message := by
  obtain ⟨p, hheader, hquestions, hrecords⟩ := readMessage_eq_some.mp h
  have hmin := headerLength_le_of_readHeader hheader
  have hlength := length_dnsResponse hmin
  have hmore : query.length < (dnsResponse query).length := by
    rw [hlength]
    exact Nat.lt_add_of_pos_right (by decide)
  have hcount : (responseHeader message.header).records = message.questions.length := by
    rw [length_of_readMany hquestions]
    rfl
  have hresponse := readHeader_dnsResponse hheader
  unfold answered
  split
  · rename_i hnone
    rw [hnone, List.length_nil] at hcount
    exact readMessage_eq_none hresponse hcount hcount (Nat.lt_of_le_of_lt hmin hmore)
  · rename_i question rest hsome
    have hqdcount := length_of_readMany hquestions
    rw [hsome, List.length_cons] at hqdcount
    rw [← hqdcount] at hquestions
    obtain ⟨x, e, xs, hfirst, _, hxs⟩ := readMany_succ_eq_some.mp hquestions
    rw [hsome] at hxs
    cases hxs
    rw [readMessage_of_continues (continues_dnsResponse hmin) h hresponse rfl
      (readRecord_dnsResponse hmin hfirst) hmore, hcount, length_of_readMany hrecords]

/-- **Every query gets its answer.** For any series of queries that a resolver can read and that
fit in the buffer, each is answered in turn. Exactly when a query has one question more than it has
records, a resolver reads from the response the questions and the records of the query, and behind
them one more record, the address of the access point under the name of the first question. -/
theorem readMessage_sent (response : Vector UInt8 dnsAnswerMaxSize) {queries : List Bytes}
    (h : ∀ query ∈ queries, query.length < dnsQueryMaxSize ∧ (readMessage query).isSome = true) :
    ∃ s, DnsServer.serve ⟨response, []⟩ queries = .ok s ∧
      s.sent.map readMessage = queries.map fun query => (readMessage query).bind answered := by
  have hread : ∀ query ∈ queries, sizeofDnsHeader ≤ query.length ∧
      readMessage (dnsResponse query) = (readMessage query).bind answered := by
    intro query hquery
    obtain ⟨message, hmessage⟩ := Option.isSome_iff_exists.mp (h query hquery).2
    obtain ⟨_, hheader, _⟩ := readMessage_eq_some.mp hmessage
    rw [hmessage, Option.bind_some]
    exact ⟨headerLength_le_of_readHeader hheader, readMessage_dnsResponse hmessage⟩
  have hne : ∀ query ∈ queries, query ≠ [] := by
    intro query hquery hnil
    have hmin := (hread query hquery).1
    rw [hnil] at hmin
    exact absurd hmin (by decide)
  have hnone : ∀ query ∈ queries, DnsServer.fault query = none := by
    intro query hquery
    rw [DnsServer.fault, if_neg (hne query hquery), if_neg (Nat.not_lt.mpr (hread query hquery).1),
      if_neg (Nat.not_le.mpr (h query hquery).1)]
  obtain ⟨s, hserve, hsent⟩ := DnsServer.serve_eq_ok ⟨response, []⟩ hnone
  refine ⟨s, hserve, ?_⟩
  have hall : queries.filter (· ≠ []) = queries :=
    List.filter_eq_self.mpr fun query hquery => decide_eq_true (hne query hquery)
  rw [hsent, List.nil_append, hall, List.map_map]
  exact List.map_congr_left fun query hquery => (hread query hquery).2

/-- A query for the address of `a.b`. -/
def addressQuery : Bytes :=
  [0x12, 0x34, 0x01, 0x00, 0x00, 0x01, 0x00, 0x00, 0x00, 0x00, 0x00, 0x00, 0x01, 0x61, 0x01, 0x62,
    0x00, 0x00, 0x01, 0x00, 0x01]

/-- The same query with a record that names the abilities of the resolver. -/
def extendedQuery : Bytes :=
  [0x12, 0x34, 0x01, 0x00, 0x00, 0x01, 0x00, 0x00, 0x00, 0x00, 0x00, 0x01, 0x01, 0x61, 0x01, 0x62,
    0x00, 0x00, 0x01, 0x00, 0x01, 0x00, 0x00, 0x29, 0x04, 0xD0, 0x00, 0x00, 0x00, 0x00, 0x00, 0x00]

/-- The first one is answered, the second one is not. -/
theorem readMessage_sent_queries : ∃ s : DnsServer,
    DnsServer.serve ⟨Vector.replicate dnsAnswerMaxSize 0, []⟩ [addressQuery, extendedQuery] =
        .ok s ∧
      s.sent.map readMessage =
        [addressQuery, extendedQuery].map fun query => (readMessage query).bind answered :=
  readMessage_sent _ (by decide +kernel)

end NixieVfdCentral
