import Nostalux.Net.Dhcp

/-!
# `kernel/net.c`: the DNS resolver and its cache

Names are C strings.  A message is memory together with its size, as it was received.  The counter
`hops` of `dns_expand_name` and the loop over the aliases in `dns_find_address_answer` count down
here, so that every recursion is structural.
-/

namespace Nostalux.Net

open BigEndian

/-! ### Constants -/

/-- `DNS_HEADER_SIZE`. -/
abbrev dnsHeaderSize : ℕ := 12

/-- `DNS_QUERY_CAPACITY`. -/
abbrev dnsQueryCapacity : ℕ := 271

/-- `DNS_TYPE_A`. -/
abbrev dnsTypeA : UInt16 := 1

/-- `DNS_TYPE_CNAME`. -/
abbrev dnsTypeCname : UInt16 := 5

/-- `DNS_TYPE_SOA`. -/
abbrev dnsTypeSoa : UInt16 := 6

/-- `DNS_CLASS_IN`. -/
abbrev dnsClassIn : UInt16 := 1

/-- `DNS_RETRY_INTERVAL_MS`. -/
abbrev dnsRetryIntervalMs : UInt64 := 2000

/-- `DNS_MAX_ATTEMPTS`. -/
abbrev dnsMaxAttempts : UInt32 := 3

/-- `DNS_MAX_CNAME_HOPS`. -/
abbrev dnsMaxCnameHops : ℕ := 8

/-- `NET_DNS_NEGATIVE_TTL_MAX_SECONDS`. -/
abbrev netDnsNegativeTtlMaxSeconds : UInt32 := 60

/-- The number of turns that the counter `hops` of `dns_expand_name` allows. -/
abbrev dnsExpandTurns : ℕ := 129

/-! ### Names -/

/-- The loop of `dns_validate_and_copy_name` over the rest of the name; the result is what it
copies. -/
def dnsValidateLoop : List UInt8 → ℕ → ℕ → Option (List UInt8)
  | [], _, labelLength => if labelLength = 0 ∨ labelLength > 63 then none else some []
  | character :: rest, length, labelLength =>
    if length ≥ netDnsNameMax then none
    else if character = 0x2E then
      if labelLength = 0 ∨ labelLength > 63 then none
      -- a final dot is not copied
      else if rest = [] then some []
      else (dnsValidateLoop rest (length + 1) 0).map (character :: ·)
    else if character ≤ 0x20 ∨ character ≥ 0x7F then none
    else if labelLength + 1 > 63 then none
    else (dnsValidateLoop rest (length + 1) (labelLength + 1)).map (character :: ·)

/-- `dns_validate_and_copy_name`; no name is the `NULL` pointer. -/
def dnsValidateAndCopyName (name : Option CString) : Option CString :=
  match name with
  | none => none
  | some name =>
    if name.bytes = [] then none else (dnsValidateLoop name.bytes 0 0).map CString.ofBytes

/-- A label behind what `dns_encode_name` has written. -/
def dnsAppendLabel (capacity : ℕ) (output label : List UInt8) : Option (List UInt8) :=
  if label.length = 0 ∨ label.length > 63 ∨ output.length + 1 + label.length ≥ capacity then none
  else some (output ++ UInt8.ofNat label.length :: label)

/-- The loop of `dns_encode_name` over the rest of the name, with the characters of the current
label. -/
def dnsEncodeLoop (capacity : ℕ) : List UInt8 → List UInt8 → List UInt8 → Option (List UInt8)
  | [], output, label => dnsAppendLabel capacity output label
  | character :: rest, output, label =>
    if character = 0x2E then
      match dnsAppendLabel capacity output label with
      | none => none
      | some output => dnsEncodeLoop capacity rest output []
    else dnsEncodeLoop capacity rest output (label ++ [character])

/-- `dns_encode_name`. -/
def dnsEncodeName (capacity : ℕ) (name : CString) : Option (List UInt8) :=
  match dnsEncodeLoop capacity name.bytes [] [] with
  | none => none
  | some output => if output.length ≥ capacity then none else some (output ++ [0])

/-- `ascii_lower`. -/
def asciiLower (character : UInt8) : UInt8 :=
  if 0x41 ≤ character ∧ character ≤ 0x5A then character + 0x20 else character

/-- The loop of `dns_names_equal`. -/
def dnsTextsEqual : List UInt8 → List UInt8 → Bool
  | [], [] => true
  | a :: left, b :: right =>
    if asciiLower a ≠ asciiLower b then false else dnsTextsEqual left right
  | _, _ => false

theorem dnsTextsEqual_iff (left right : List UInt8) :
    dnsTextsEqual left right = true ↔ left.map asciiLower = right.map asciiLower := by
  induction left generalizing right with
  | nil => cases right <;> simp [dnsTextsEqual]
  | cons a left ih =>
    cases right with
    | nil => simp [dnsTextsEqual]
    | cons b right =>
      rw [dnsTextsEqual]
      by_cases h : asciiLower a = asciiLower b
      · simp [h, ih]
      · simp [h]

/-- `dns_names_equal`. -/
def dnsNamesEqual (left right : CString) : Bool := dnsTextsEqual left.bytes right.bytes

/-- `dns_name_is_within_zone`. -/
def dnsNameIsWithinZone (name zone : CString) : Bool :=
  if zone.length = 0 then true
  else if name.length < zone.length then false
  else if !dnsTextsEqual (name.bytes.drop (name.length - zone.length)) zone.bytes then false
  else name.length = zone.length ∨ name.char (name.length - zone.length - 1) = 0x2E

/-! ### Messages -/

/-- The characters of a label, if all of them are printable. -/
def dnsLabel (message : Memory) (cursor length : ℕ) : Option (List UInt8) :=
  let label := (message.shift cursor).bytes length
  if label.any fun character => character ≤ 0x20 ∨ character ≥ 0x7F then none else some label

/-- The loop of `dns_expand_name`, with the number of turns that are left, the text so far, and the
resume offset once a pointer was followed. -/
def dnsExpandLoop (message : Memory) (messageSize : ℕ) :
    ℕ → ℕ → List UInt8 → Option ℕ → Option (List UInt8 × ℕ)
  | 0, _, _, _ => none
  | turns + 1, cursor, output, resume =>
    if cursor ≥ messageSize then none
    else
      let length := message cursor
      if length &&& 0xC0 = 0xC0 then
        if cursor + 1 ≥ messageSize then none
        else
          let pointer := (length &&& 0x3F).toNat * 256 + (message (cursor + 1)).toNat
          if pointer ≥ messageSize then none
          else dnsExpandLoop message messageSize turns pointer output
            (some (resume.getD (cursor + 2)))
      else if length &&& 0xC0 ≠ 0 ∨ length > 63 then none
      else if length = 0 then some (output, resume.getD (cursor + 1))
      else if length.toNat > messageSize - (cursor + 1) then none
      else if output ≠ [] ∧ output.length ≥ netDnsNameMax then none
      else
        let output := if output = [] then [] else output ++ [0x2E]
        if length.toNat > netDnsNameMax - output.length then none
        else
          match dnsLabel message (cursor + 1) length.toNat with
          | none => none
          | some label =>
            dnsExpandLoop message messageSize turns (cursor + 1 + length.toNat) (output ++ label)
              resume

/-- `dns_expand_name`: the name, and the offset behind it. -/
def dnsExpandName (message : Memory) (messageSize offset : ℕ) : Option (CString × ℕ) :=
  (dnsExpandLoop message messageSize dnsExpandTurns offset [] none).map fun name =>
    (CString.ofBytes name.1, name.2)

/-- `dns_skip_name`. -/
def dnsSkipName (message : Memory) (messageSize offset : ℕ) : Option ℕ :=
  (dnsExpandName message messageSize offset).map (·.2)

/-- `struct dns_record_view`. -/
structure DnsRecordView where
  ownerOffset : ℕ
  dataOffset : ℕ
  nextOffset : ℕ
  type : UInt16
  recordClass : UInt16
  dataSize : ℕ
  ttlSeconds : UInt32

/-- `dns_read_record`; the new offset is the `nextOffset` of the record. -/
def dnsReadRecord (message : Memory) (messageSize offset : ℕ) : Option DnsRecordView :=
  if offset ≥ messageSize then none
  else
    match dnsSkipName message messageSize offset with
    | none => none
    | some cursor =>
      if cursor > messageSize ∨ messageSize - cursor < 10 then none
      else
        let dataSize := (u16At message (cursor + 8)).toNat
        if dataSize > messageSize - (cursor + 10) then none
        else
          some
            { ownerOffset := offset
              dataOffset := cursor + 10
              nextOffset := cursor + 10 + dataSize
              type := u16At message cursor
              recordClass := u16At message (cursor + 2)
              dataSize := dataSize
              ttlSeconds := u32At message (cursor + 4) }

/-- A loop of `dns_validate_record_sections` over a number of records: the offset behind them. -/
def dnsSkipRecords (message : Memory) (messageSize : ℕ) : ℕ → ℕ → Option ℕ
  | 0, offset => some offset
  | count + 1, offset =>
    match dnsReadRecord message messageSize offset with
    | none => none
    | some record => dnsSkipRecords message messageSize count record.nextOffset

/-- `dns_validate_record_sections`: the offset of the authority section. -/
def dnsValidateRecordSections (message : Memory) (messageSize recordsOffset : ℕ)
    (answerCount authorityCount additionalCount : UInt16) : Option ℕ := do
  let authorityOffset ← dnsSkipRecords message messageSize answerCount.toNat recordsOffset
  let offset ← dnsSkipRecords message messageSize authorityCount.toNat authorityOffset
  let offset ← dnsSkipRecords message messageSize additionalCount.toNat offset
  if offset = messageSize then some authorityOffset else none

/-- What one pass of `dns_find_address_answer` has found so far: the selected address and the alias,
each with its time to live. -/
structure DnsScan where
  address : Option (UInt32 × UInt32)
  cname : Option (CString × UInt32)
  deriving Inhabited

/-- One record of a pass of `dns_find_address_answer`; nothing is a malformed answer. -/
def dnsScanRecord (message : Memory) (messageSize : ℕ) (currentName owner : CString)
    (record : DnsRecordView) (scan : DnsScan) : Option DnsScan :=
  if record.recordClass ≠ dnsClassIn ∨ !dnsNamesEqual owner currentName then some scan
  else if record.type = dnsTypeA then
    if record.dataSize ≠ 4 ∨ scan.cname.isSome then none
    else
      let candidate := u32At message record.dataOffset
      if !ipv4IsUsableUnicast candidate then some scan
      else
        match scan.address with
        | none => some { scan with address := some (candidate, record.ttlSeconds) }
        | some (address, ttl) =>
          if record.ttlSeconds < ttl then
            some { scan with address := some (address, record.ttlSeconds) }
          else some scan
  else if record.type = dnsTypeCname then
    if scan.address.isSome ∨ scan.cname.isSome then none
    else
      match dnsExpandName message messageSize record.dataOffset with
      | none => none
      | some (target, next) =>
        if target.length = 0 ∨ next ≠ record.nextOffset then none
        else some { scan with cname := some (target, record.ttlSeconds) }
  else some scan

/-- The inner loop of `dns_find_address_answer`. -/
def dnsScanAnswers (message : Memory) (messageSize : ℕ) (currentName : CString) :
    ℕ → ℕ → DnsScan → Option DnsScan
  | 0, _, scan => some scan
  | count + 1, offset, scan =>
    match dnsReadRecord message messageSize offset with
    | none => none
    | some record =>
      match dnsExpandName message messageSize record.ownerOffset with
      | none => none
      | some (owner, _) =>
        match dnsScanRecord message messageSize currentName owner record scan with
        | none => none
        | some scan => dnsScanAnswers message messageSize currentName count record.nextOffset scan

/-- `enum dns_answer_search_result` with the values that are returned along with it. -/
inductive DnsAnswer
  | notFound (ttlSeconds : UInt32) (terminalName : CString)
  | address (address ttlSeconds : UInt32) (terminalName : CString)
  | malformed

/-- The smaller time to live, where `UINT32_MAX` stands for none so far. -/
def dnsShorterTtl (effectiveTtl ttl : UInt32) : UInt32 :=
  if effectiveTtl = uint32Max ∨ ttl < effectiveTtl then ttl else effectiveTtl

/-- The outer loop of `dns_find_address_answer`, with the number of passes that are left. -/
def dnsFollowAliases (message : Memory) (messageSize answersOffset answerCount : ℕ) :
    ℕ → CString → UInt32 → DnsAnswer
  | 0, _, _ => .malformed
  | passes + 1, currentName, effectiveTtl =>
    match dnsScanAnswers message messageSize currentName answerCount answersOffset default with
    | none => .malformed
    | some ⟨some (address, ttl), _⟩ =>
      .address address (dnsShorterTtl effectiveTtl ttl) currentName
    | some ⟨none, none⟩ => .notFound effectiveTtl currentName
    | some ⟨none, some (target, ttl)⟩ =>
      if passes = 0 ∨ dnsNamesEqual target currentName then .malformed
      else dnsFollowAliases message messageSize answersOffset answerCount passes target
        (dnsShorterTtl effectiveTtl ttl)

/-- `dns_find_address_answer`. -/
def dnsFindAddressAnswer (message : Memory) (messageSize answersOffset : ℕ) (answerCount : UInt16)
    (queryName : CString) : DnsAnswer :=
  dnsFollowAliases message messageSize answersOffset answerCount.toNat (dnsMaxCnameHops + 1)
    queryName uint32Max

/-- The time to live that an SOA record of `dns_find_negative_ttl` gives. -/
def dnsSoaTtl (message : Memory) (messageSize : ℕ) (record : DnsRecordView) : Option UInt32 :=
  match dnsExpandName message messageSize record.dataOffset with
  | none => none
  | some (mname, cursor) =>
    if mname.length = 0 ∨ cursor > record.nextOffset then none
    else
      match dnsExpandName message messageSize cursor with
      | none => none
      | some (rname, next) =>
        if rname.length = 0 ∨ next > record.nextOffset ∨ record.nextOffset - next ≠ 20 then none
        else
          let minimumTtl := u32At message (next + 16)
          let candidate := if record.ttlSeconds < minimumTtl then record.ttlSeconds else minimumTtl
          some (if candidate > netDnsNegativeTtlMaxSeconds then netDnsNegativeTtlMaxSeconds
            else candidate)

/-- The loop of `dns_find_negative_ttl`. -/
def dnsNegativeTtlLoop (message : Memory) (messageSize : ℕ) (terminalName : CString) :
    ℕ → ℕ → UInt32 → UInt32
  | 0, _, selected => selected
  | count + 1, offset, selected =>
    match dnsReadRecord message messageSize offset with
    | none => 0
    | some record =>
      match dnsExpandName message messageSize record.ownerOffset with
      | none => 0
      | some (owner, _) =>
        let candidate :=
          if record.type ≠ dnsTypeSoa ∨ record.recordClass ≠ dnsClassIn ∨
              !dnsNameIsWithinZone terminalName owner then none
          else dnsSoaTtl message messageSize record
        dnsNegativeTtlLoop message messageSize terminalName count record.nextOffset
          (match candidate with
          | none => selected
          | some candidate =>
            if candidate ≠ 0 ∧ (selected = 0 ∨ candidate < selected) then candidate else selected)

/-- `dns_find_negative_ttl`. -/
def dnsFindNegativeTtl (message : Memory) (messageSize authorityOffset : ℕ)
    (authorityCount : UInt16) (terminalName : CString) : UInt32 :=
  dnsNegativeTtlLoop message messageSize terminalName authorityCount.toNat authorityOffset 0

/-! ### The cache -/

/-- The number of attempts and the time of the next one. -/
def NetDnsClient.schedule (dns : NetDnsClient) (attempts : UInt32) (nextActionMs : UInt64) :
    NetDnsClient :=
  { dns with attempts := attempts, nextActionMs := nextActionMs }

/-- `dns_cache_remaining_seconds`. -/
def dnsCacheRemainingSeconds (expiresMs nowMs : UInt64) : UInt32 :=
  if expiresMs ≤ nowMs then 0
  else
    let remainingMs := expiresMs - nowMs
    let seconds := remainingMs / 1000 + if remainingMs % 1000 ≠ 0 then 1 else 0
    if seconds > uint32Max.toUInt64 then uint32Max else seconds.toUInt32

/-- The loop of `dns_cache_store` over the entries that are left: the first free entry, or else the
one that was used longest ago. -/
def dnsCacheSelect (cache : Fin 8 → NetDnsCacheEntry) :
    List (Fin 8) → Option (Fin 8) → UInt64 → Option (Fin 8)
  | [], selected, _ => selected
  | i :: rest, selected, oldestUse =>
    if !(cache i).valid then some i
    else if (cache i).lastUsedMs < oldestUse then
      dnsCacheSelect cache rest (some i) (cache i).lastUsedMs
    else dnsCacheSelect cache rest selected oldestUse

/-- The entry that is stored for an answer. -/
def dnsCacheEntry (nowMs : UInt64) (name : CString) (negative : Bool) (address : UInt32)
    (responseCode : UInt8) (ttlSeconds : UInt32) : NetDnsCacheEntry where
  valid := true
  negative := negative
  name := name
  address := if negative then 0 else address
  responseCode := responseCode
  expiresMs := saturatingAddU64 nowMs (secondsToMs ttlSeconds)
  lastUsedMs := nowMs

namespace NetStack

/-- Whether an entry is in use and its time is over. -/
def dnsEntryExpired (s : NetStack) (i : Fin 8) : Bool :=
  (s.dnsCache i).valid && (s.dnsCache i).expiresMs ≤ s.currentTimeMs

/-- `dns_cache_expire`. -/
def dnsCacheExpire (s : NetStack) : NetStack :=
  { s with
    dnsCacheExpirations := s.dnsCacheExpirations +
      UInt64.ofNat ((List.finRange 8).countP fun i => s.dnsEntryExpired i) }.withDnsCache fun i =>
    if s.dnsEntryExpired i then { s.dnsCache i with valid := false } else s.dnsCache i

/-- `dns_cache_find`: the index of the entry. -/
def dnsCacheFind (s : NetStack) (name : CString) : Option (Fin 8) :=
  (List.finRange 8).find? fun i => (s.dnsCache i).valid && dnsNamesEqual (s.dnsCache i).name name

/-- Write an entry of the cache. -/
def dnsCachePut (s : NetStack) (i : Fin 8) (name : CString) (negative : Bool) (address : UInt32)
    (responseCode : UInt8) (ttlSeconds : UInt32) : NetStack :=
  s.withDnsCache (Function.update s.dnsCache i
    (dnsCacheEntry s.currentTimeMs name negative address responseCode ttlSeconds))

/-- An entry in use that is about to be replaced is counted. -/
def dnsCountEviction (s : NetStack) (i : Fin 8) : NetStack :=
  { s with
    dnsCacheEvictions :=
      if (s.dnsCache i).valid then s.dnsCacheEvictions + 1 else s.dnsCacheEvictions }

/-- The part of `dns_cache_store` behind the removal of the entries whose time is over. -/
def dnsCacheInsert (s : NetStack) (name : CString) (negative : Bool) (address : UInt32)
    (responseCode : UInt8) (ttlSeconds : UInt32) : NetStack :=
  match s.dnsCacheFind name with
  | some i => s.dnsCachePut i name negative address responseCode ttlSeconds
  | none =>
    match dnsCacheSelect s.dnsCache (List.finRange 8) none uint64Max with
    | none => s
    | some i =>
      (s.dnsCountEviction i).dnsCachePut i name negative address responseCode ttlSeconds

/-- `dns_cache_store`. -/
def dnsCacheStore (s : NetStack) (name : CString) (negative : Bool) (address : UInt32)
    (responseCode : UInt8) (ttlSeconds : UInt32) : NetStack :=
  if ttlSeconds = 0 then s
  else s.dnsCacheExpire.dnsCacheInsert name negative address responseCode ttlSeconds

/-! ### Queries and replies -/

/-- The query that `dns_send_query` builds for an encoded name. -/
def dnsQueryMessage (s : NetStack) (name : List UInt8) : List UInt8 :=
  writeU16 s.dns.transactionId ++ writeU16 0x0100 ++ writeU16 1 ++ [0, 0, 0, 0, 0, 0] ++ name ++
    writeU16 dnsTypeA ++ writeU16 dnsClassIn

/-- A query is counted, and the time of the next one is set. -/
def dnsCountAttempt (s : NetStack) : NetStack :=
  s.withDns (s.dns.schedule (s.dns.attempts + 1)
    (saturatingAddU64 s.currentTimeMs dnsRetryIntervalMs))

/-- `dns_send_query`. -/
def dnsSendQuery (s : NetStack) : Bool × NetStack :=
  match dnsEncodeName (dnsQueryCapacity - dnsHeaderSize) s.dns.name with
  | none => (false, s)
  | some name =>
    if dnsHeaderSize + name.length + 4 > dnsQueryCapacity then (false, s)
    else
      let sent := s.netUdpSend s.ipv4.dns dnsServerPort s.dns.sourcePort
        (.external (byteAt (s.dnsQueryMessage name))) (dnsHeaderSize + name.length + 4)
      (sent.1 ≠ .failed, sent.2.dnsCountAttempt)

/-- The resolver leaves the state `PENDING`. -/
def dnsEnd (s : NetStack) (state : NetDnsState) : NetStack :=
  s.withDns { s.dns with state := state }

/-- A response without an address, with the time that it may be kept. -/
def dnsEndNegative (s : NetStack) (ttlSeconds : UInt32) : NetStack :=
  let noted := s.withDns { s.dns with ttlSeconds := ttlSeconds }
  (if ttlSeconds ≠ 0 then
    noted.dnsCacheStore s.dns.name true 0 s.dns.responseCode ttlSeconds
    else noted).dnsEnd .notFound

/-- The time that a response without an address may be kept. -/
def dnsNegativeTtl (negativeTtl answerTtl : UInt32) : UInt32 :=
  if negativeTtl ≠ 0 ∧ answerTtl ≠ uint32Max ∧ answerTtl < negativeTtl then answerTtl
  else negativeTtl

/-- The answer to a response with an address. -/
def dnsEndPositive (s : NetStack) (address ttlSeconds : UInt32) : NetStack :=
  (s.withDns { s.dns with
    resultAddress := address
    ttlSeconds := ttlSeconds
    state := .resolved }).dnsCacheStore s.dns.name false address 0 ttlSeconds

/-- The part of `dns_receive` behind the validation of the message. -/
def dnsReceiveValid (s : NetStack) (message : Memory) (messageSize answersOffset : ℕ)
    (answerCount : UInt16) (authorityOffset : ℕ) (authorityCount : UInt16) : NetStack :=
  if s.dns.responseCode ≠ 0 ∧ s.dns.responseCode ≠ 3 then s.dnsEnd .serverError
  else
    match dnsFindAddressAnswer message messageSize answersOffset answerCount s.dns.name with
    | .malformed => s.dnsEnd .malformedResponse
    | .address address ttl _ =>
      if s.dns.responseCode ≠ 0 then s.dnsEnd .malformedResponse
      else s.dnsEndPositive address ttl
    | .notFound ttl terminalName =>
      s.dnsEndNegative (dnsNegativeTtl
        (dnsFindNegativeTtl message messageSize authorityOffset authorityCount terminalName) ttl)

/-- What `dns_receive` demands of the header of a response. -/
def dnsFlagsRejected (flags : UInt16) : Bool :=
  flags &&& 0x8000 = 0 ∨ flags &&& 0x0200 ≠ 0 ∨ (flags >>> 11) &&& 0xF ≠ 0

/-- The question of a response: the offset behind it, if it is the question that was asked. -/
def dnsReadQuestion (s : NetStack) (message : Memory) (messageSize : ℕ) : Option ℕ :=
  match dnsExpandName message messageSize dnsHeaderSize with
  | none => none
  | some (questionName, next) =>
    if next > messageSize ∨ messageSize - next < 4 ∨ !dnsNamesEqual questionName s.dns.name ∨
        u16At message next ≠ dnsTypeA ∨ u16At message (next + 2) ≠ dnsClassIn then none
    else some (next + 4)

/-- The part of `dns_receive` behind the checks of the header. -/
def dnsReceiveRecords (s : NetStack) (message : Memory) (messageSize : ℕ) : NetStack :=
  let answerCount := u16At message 6
  let authorityCount := u16At message 8
  let additionalCount := u16At message 10
  if u16At message 4 ≠ 1 ∨
      answerCount.toNat + authorityCount.toNat + additionalCount.toNat > 64 then
    s.dnsEnd .malformedResponse
  else
    match s.dnsReadQuestion message messageSize with
    | none => s.dnsEnd .malformedResponse
    | some answersOffset =>
      match dnsValidateRecordSections message messageSize answersOffset answerCount authorityCount
        additionalCount with
      | none => s.dnsEnd .malformedResponse
      | some authorityOffset =>
        s.dnsReceiveValid message messageSize answersOffset answerCount authorityOffset
          authorityCount

/-- Whether `dns_receive` takes a message for a response to the current query. -/
def dnsIsResponse (s : NetStack) (sourceIp : UInt32) (sourcePort destinationPort : UInt16)
    (message : Memory) (messageSize : ℕ) : Bool :=
  s.dns.state = .pending ∧ sourceIp = s.ipv4.dns ∧ sourcePort = dnsServerPort ∧
    destinationPort = s.dns.sourcePort ∧ messageSize ≥ dnsHeaderSize ∧
    u16At message 0 = s.dns.transactionId

/-- `dns_receive`.  The response code is stored before the rest of the message is checked. -/
def dnsReceive (s : NetStack) (sourceIp : UInt32) (sourcePort destinationPort : UInt16)
    (message : Memory) (messageSize : ℕ) : Bool × NetStack :=
  if !s.dnsIsResponse sourceIp sourcePort destinationPort message messageSize then (false, s)
  else
    let flags := u16At message 2
    if dnsFlagsRejected flags then (true, s.dnsEnd .malformedResponse)
    else
      (true, (s.withDns
        { s.dns with responseCode := (flags &&& 0xF).toUInt8 }).dnsReceiveRecords message
          messageSize)

/-- The answer of `net_dns_query` from an entry of the cache. -/
def dnsAnswerCached (s : NetStack) (i : Fin 8) (name : CString) (remaining : UInt32) : NetStack :=
  let used := { s with dnsCacheHits := s.dnsCacheHits + 1 }.withDnsCache
    (Function.update s.dnsCache i { s.dnsCache i with lastUsedMs := s.currentTimeMs })
  used.withDns { (default : NetDnsClient) with
    name := name
    state := if (s.dnsCache i).negative then .notFound else .resolved
    resultAddress := (s.dnsCache i).address
    ttlSeconds := remaining
    responseCode := (s.dnsCache i).responseCode }

/-- A miss of the cache is counted. -/
def dnsCountMiss (s : NetStack) : NetStack := { s with dnsCacheMisses := s.dnsCacheMisses + 1 }

/-- The transaction id of a query; zero asks for one that is made up from the time. -/
def dnsTransactionId (s : NetStack) (transactionId : UInt16) : UInt16 :=
  if transactionId ≠ 0 then transactionId
  else
    let generated := s.nextIpv4Id ^^^ s.currentTimeMs.toUInt16
    if generated = 0 then 1 else generated

/-- The resolver turns to a new query. -/
def dnsAsk (s : NetStack) (name : CString) (transactionId : UInt16) : NetStack :=
  s.withDns { s.dns with
    name := name
    transactionId := transactionId
    sourcePort := 49152 + (transactionId &&& 0x3FFF)
    resultAddress := 0
    ttlSeconds := 0
    responseCode := 0
    attempts := 0
    state := .pending }

/-- The part of `net_dns_query` behind a miss of the cache. -/
def dnsBeginQuery (s : NetStack) (name : CString) (transactionId : UInt16) : Bool × NetStack :=
  if s.ipv4.address = 0 ∨ !ipv4IsUsableUnicast s.ipv4.dns then (false, s.dnsCountMiss)
  else
    (true, (s.dnsCountMiss.dnsAsk name (s.dnsTransactionId transactionId)).dnsSendQuery.2)

/-- The part of `net_dns_query` behind the removal of the entries whose time is over. -/
def dnsLookUp (s : NetStack) (name : CString) (transactionId : UInt16) : Bool × NetStack :=
  match s.dnsCacheFind name with
  | none => s.dnsBeginQuery name transactionId
  | some i =>
    let remaining := dnsCacheRemainingSeconds (s.dnsCache i).expiresMs s.currentTimeMs
    if remaining ≠ 0 then (true, s.dnsAnswerCached i name remaining)
    else s.dnsBeginQuery name transactionId

/-- `net_dns_query`; no name is the `NULL` pointer. -/
def netDnsQuery (s : NetStack) (name : Option CString) (transactionId : UInt16) :
    Bool × NetStack :=
  match dnsValidateAndCopyName name with
  | none => (false, s)
  | some name => s.dnsCacheExpire.dnsLookUp name transactionId

/-- Whether the packet that waits for ARP is the datagram of the current query, as `net_dns_cancel`
finds out. -/
def dnsOwnsPending (s : NetStack) : Bool :=
  s.pendingIpv4.valid ∧ s.pendingIpv4.protocol = netIpv4ProtocolUdp ∧
    s.pendingIpv4.destinationIp = s.ipv4.dns ∧ s.pendingIpv4.payload.length ≥ 10 ∧
    readU16 s.pendingIpv4.payload 0 = s.dns.sourcePort ∧
    readU16 s.pendingIpv4.payload 2 = dnsServerPort ∧
    readU16 s.pendingIpv4.payload 8 = s.dns.transactionId

/-- `net_dns_clear_result`. -/
def netDnsClearResult (s : NetStack) : NetStack := s.withDns default

/-- `net_dns_cancel`. -/
def netDnsCancel (s : NetStack) : Bool × NetStack :=
  if s.dns.state ≠ .pending then (false, s)
  else
    let s' := if s.dnsOwnsPending then s.withPending default else s
    (true, s'.netDnsClearResult)

end NetStack

end Nostalux.Net
