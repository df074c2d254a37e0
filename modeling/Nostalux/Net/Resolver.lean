import Nostalux.Net.Lease

/-!
# The resolver: what a response can do

`dns_receive` turns a response into an answer only behind all of its checks, and then it writes at
most one entry of the cache, for the name that was asked for.

* `dnsReceive_outcome`: everything that `dns_receive` can do;
* `dnsCacheStore_stores`: storing an answer writes one entry and keeps the others, or their time is
  over;
* `netInput_not_injected`: frames from outside of the exchange leave the resolver and the cache
  alone.  The exception are messages for the DHCP client, which may change the configuration of the
  interface; these can only clear the cache and end the query.
-/

namespace Nostalux.Net

open BigEndian Function NetDnsClient NetStack

/-! ### Names -/

/-- A name without the difference between upper and lower case. -/
def dnsFold (name : CString) : List UInt8 := name.bytes.map asciiLower

theorem dnsNamesEqual_iff (left right : CString) :
    dnsNamesEqual left right = true ↔ dnsFold left = dnsFold right :=
  dnsTextsEqual_iff left.bytes right.bytes

/-! ### Times to live -/

theorem dnsSoaTtl_le {message : Memory} {messageSize : ℕ} {record : DnsRecordView} {ttl : UInt32}
    (h : dnsSoaTtl message messageSize record = some ttl) : ttl ≤ netDnsNegativeTtlMaxSeconds := by
  unfold dnsSoaTtl at h
  split at h
  · cases h
  split at h
  · cases h
  split at h
  · cases h
  split at h
  · cases h
  · dsimp only at h
    split at h
    · cases h
      split
      · exact UInt32.le_refl _
      · rename_i hle
        exact UInt32.not_lt.1 hle
    · cases h
      split
      · exact UInt32.le_refl _
      · rename_i hle
        exact UInt32.not_lt.1 hle

theorem dnsNegativeTtlLoop_le (message : Memory) (messageSize : ℕ) (terminalName : CString)
    (count offset : ℕ) {selected : UInt32} (h : selected ≤ netDnsNegativeTtlMaxSeconds) :
    dnsNegativeTtlLoop message messageSize terminalName count offset selected ≤
      netDnsNegativeTtlMaxSeconds := by
  induction count generalizing offset selected with
  | zero => exact h
  | succ count ih =>
    unfold dnsNegativeTtlLoop
    split
    · exact UInt32.zero_le
    split
    · exact UInt32.zero_le
    · apply ih
      split
      · exact h
      · rename_i candidate hcandidate
        split at hcandidate
        · cases hcandidate
        · split
          · exact dnsSoaTtl_le hcandidate
          · exact h

/-- An answer without an address is kept for at most a minute. -/
theorem dnsNegativeTtl_le (message : Memory) (messageSize authorityOffset : ℕ)
    (authorityCount : UInt16) (terminalName : CString) (answerTtl : UInt32) :
    dnsNegativeTtl (dnsFindNegativeTtl message messageSize authorityOffset authorityCount
      terminalName) answerTtl ≤ netDnsNegativeTtlMaxSeconds := by
  have h : dnsFindNegativeTtl message messageSize authorityOffset authorityCount terminalName ≤
      netDnsNegativeTtlMaxSeconds :=
    dnsNegativeTtlLoop_le message messageSize terminalName _ _ UInt32.zero_le
  unfold dnsNegativeTtl
  split
  · rename_i hlt
    exact UInt32.le_of_lt (UInt32.lt_of_lt_of_le hlt.2.2 h)
  · exact h

/-! ### Responses -/

/-- A message that may answer a query for a name: a response that is not truncated, to a standard
query, with exactly the question that was asked, and with at most 64 records in three sections that
end where the message ends. -/
structure DnsMessageValid (name : CString) (message : Memory) (messageSize : ℕ) : Prop where
  response : u16At message 2 &&& 0x8000 ≠ 0
  complete : u16At message 2 &&& 0x0200 = 0
  opcode : (u16At message 2 >>> 11) &&& 0xF = 0
  oneQuestion : u16At message 4 = 1
  records : (u16At message 6).toNat + (u16At message 8).toNat + (u16At message 10).toNat ≤ 64
  parsed : ∃ question next authorityOffset additionalOffset,
    dnsExpandName message messageSize dnsHeaderSize = some (question, next) ∧
    dnsFold question = dnsFold name ∧ next + 4 ≤ messageSize ∧
    u16At message next = dnsTypeA ∧ u16At message (next + 2) = dnsClassIn ∧
    dnsSkipRecords message messageSize (u16At message 6).toNat (next + 4) = some authorityOffset ∧
    dnsSkipRecords message messageSize (u16At message 8).toNat authorityOffset =
      some additionalOffset ∧
    dnsSkipRecords message messageSize (u16At message 10).toNat additionalOffset =
      some messageSize

/-- The response code of a message. -/
def dnsResponseCode (message : Memory) : UInt8 := (u16At message 2 &&& 0xF).toUInt8

theorem dnsFlagsRejected_eq_false_iff (flags : UInt16) :
    dnsFlagsRejected flags = false ↔
      flags &&& 0x8000 ≠ 0 ∧ flags &&& 0x0200 = 0 ∧ (flags >>> 11) &&& 0xF = 0 := by
  simp only [dnsFlagsRejected, decide_eq_false_iff_not]
  tauto

namespace NetStack

variable {s : NetStack}

variable {message : Memory}

theorem dnsReadQuestion_eq_some {messageSize offset : ℕ}
    (h : s.dnsReadQuestion message messageSize = some offset) :
    ∃ question next, dnsExpandName message messageSize dnsHeaderSize = some (question, next) ∧
      dnsFold question = dnsFold s.dns.name ∧ next + 4 ≤ messageSize ∧
      u16At message next = dnsTypeA ∧ u16At message (next + 2) = dnsClassIn ∧
      offset = next + 4 := by
  unfold dnsReadQuestion at h
  split at h
  · cases h
  rename_i question next hname
  split at h
  · cases h
  rename_i hchecks
  cases h
  simp only [not_or, not_lt, Bool.not_eq_true', Bool.not_eq_false, not_not, ne_eq] at hchecks
  obtain ⟨hnext, hroom, hequal, htype, hclass⟩ := hchecks
  exact ⟨question, next, hname, (dnsNamesEqual_iff _ _).1 hequal, by omega, htype, hclass, rfl⟩

theorem dnsValidateRecordSections_eq_some
    {messageSize recordsOffset authorityOffset : ℕ} {answers authorities additionals : UInt16}
    (h : dnsValidateRecordSections message messageSize recordsOffset answers authorities
      additionals = some authorityOffset) :
    ∃ additionalOffset,
      dnsSkipRecords message messageSize answers.toNat recordsOffset = some authorityOffset ∧
      dnsSkipRecords message messageSize authorities.toNat authorityOffset =
        some additionalOffset ∧
      dnsSkipRecords message messageSize additionals.toNat additionalOffset = some messageSize := by
  simp only [dnsValidateRecordSections, Option.bind_eq_bind, Option.bind_eq_some_iff] at h
  obtain ⟨authority, h₁, additional, h₂, last, h₃, h⟩ := h
  split at h
  · rename_i hlast
    cases h
    exact ⟨additional, h₁, h₂, hlast ▸ h₃⟩
  · cases h

/-- The response code of a message is noted. -/
def dnsNoteCode (s : NetStack) (code : UInt8) : NetStack :=
  s.withDns { s.dns with responseCode := code }

/-- What a message for the current query can do. -/
inductive DnsOutcome (s : NetStack) (message : Memory) (messageSize : ℕ) : NetStack → Prop
  | failed {code : UInt8} {state : NetDnsState}
      (state_eq : state = .malformedResponse ∨ state = .serverError) :
      DnsOutcome s message messageSize ((s.dnsNoteCode code).dnsEnd state)
  | positive {address ttlSeconds : UInt32} (valid : DnsMessageValid s.dns.name message messageSize)
      (code : dnsResponseCode message = 0) :
      DnsOutcome s message messageSize ((s.dnsNoteCode 0).dnsEndPositive address ttlSeconds)
  | negative {ttlSeconds : UInt32} (valid : DnsMessageValid s.dns.name message messageSize)
      (code : dnsResponseCode message = 0 ∨ dnsResponseCode message = 3)
      (ttl_le : ttlSeconds ≤ netDnsNegativeTtlMaxSeconds) :
      DnsOutcome s message messageSize
        ((s.dnsNoteCode (dnsResponseCode message)).dnsEndNegative ttlSeconds)

variable {messageSize : ℕ}

theorem dnsReceiveValid_outcome (valid : DnsMessageValid s.dns.name message messageSize)
    (answersOffset : ℕ) (answerCount : UInt16) (authorityOffset : ℕ) (authorityCount : UInt16) :
    s.DnsOutcome message messageSize
      ((s.dnsNoteCode (dnsResponseCode message)).dnsReceiveValid message messageSize answersOffset
        answerCount authorityOffset authorityCount) := by
  have hcode : (s.dnsNoteCode (dnsResponseCode message)).dns.responseCode =
      dnsResponseCode message := by rw [dnsNoteCode, withDns_dns]
  unfold dnsReceiveValid
  rw [hcode]
  split
  · exact .failed (.inr rfl)
  split
  · exact .failed (.inl rfl)
  · split
    · exact .failed (.inl rfl)
    · rename_i hzero
      rw [not_not.1 hzero]
      exact .positive valid (not_not.1 hzero)
  · refine .negative valid ?_ (dnsNegativeTtl_le _ _ _ _ _ _)
    tauto

theorem dnsReceiveRecords_outcome (hflags : dnsFlagsRejected (u16At message 2) = false) :
    s.DnsOutcome message messageSize
      ((s.dnsNoteCode (dnsResponseCode message)).dnsReceiveRecords message messageSize) := by
  have hname : (s.dnsNoteCode (dnsResponseCode message)).dns.name = s.dns.name := by
    rw [dnsNoteCode, withDns_dns]
  unfold dnsReceiveRecords
  dsimp only
  split
  · exact .failed (.inl rfl)
  rename_i hcounts
  split
  · exact .failed (.inl rfl)
  rename_i answersOffset hquestion
  split
  · exact .failed (.inl rfl)
  rename_i authorityOffset hsections
  obtain ⟨question, next, hexpand, hequal, hroom, htype, hclass, rfl⟩ :=
    dnsReadQuestion_eq_some hquestion
  obtain ⟨additionalOffset, h₁, h₂, h₃⟩ := dnsValidateRecordSections_eq_some hsections
  obtain ⟨hresponse, hcomplete, hopcode⟩ := (dnsFlagsRejected_eq_false_iff _).1 hflags
  simp only [not_or, not_lt, ne_eq, not_not] at hcounts
  rw [hname] at hequal
  apply dnsReceiveValid_outcome
  exact ⟨hresponse, hcomplete, hopcode, hcounts.1, hcounts.2,
    question, next, authorityOffset, additionalOffset, hexpand, hequal, hroom, htype, hclass,
    h₁, h₂, h₃⟩

/-- A message that belongs to the exchange: it comes from the resolver that was asked, to the port
and with the transaction id of the query. -/
structure IsExchange (s : NetStack) (sourceIp : UInt32) (sourcePort destinationPort : UInt16)
    (message : Memory) : Prop where
  pending : s.dns.state = .pending
  sourceIp_eq : sourceIp = s.ipv4.dns
  sourcePort_eq : sourcePort = dnsServerPort
  destinationPort_eq : destinationPort = s.dns.sourcePort
  transactionId_eq : u16At message 0 = s.dns.transactionId

variable (s)

/-- Everything that `dns_receive` can do. -/
theorem dnsReceive_outcome (sourceIp : UInt32) (sourcePort destinationPort : UInt16)
    (message : Memory) (messageSize : ℕ) :
    (s.dnsReceive sourceIp sourcePort destinationPort message messageSize).2 = s ∨
    s.IsExchange sourceIp sourcePort destinationPort message ∧
      s.DnsOutcome message messageSize
        (s.dnsReceive sourceIp sourcePort destinationPort message messageSize).2 := by
  unfold dnsReceive
  split
  · exact .inl rfl
  rename_i hresponse
  simp only [dnsIsResponse, Bool.not_eq_true', decide_eq_false_iff_not, not_not] at hresponse
  obtain ⟨hpending, hip, hsource, hdestination, -, hid⟩ := hresponse
  refine .inr ⟨⟨hpending, hip, hsource, hdestination, hid⟩, ?_⟩
  dsimp only
  split
  · exact .failed (.inl rfl)
  · rename_i hflags
    exact dnsReceiveRecords_outcome (by simpa using hflags)

/-! ### Storing an answer -/

/-- No two entries in use have names that differ in case only. -/
def CacheUnique (cache : Fin 8 → NetDnsCacheEntry) : Prop :=
  ∀ i j, (cache i).valid → (cache j).valid → dnsFold (cache i).name = dnsFold (cache j).name → i = j

theorem dnsCacheExpire_dnsCache (i : Fin 8) : s.dnsCacheExpire.dnsCache i =
      if s.dnsEntryExpired i then { s.dnsCache i with valid := false } else s.dnsCache i := by
  rw [dnsCacheExpire, withDnsCache_dnsCache]

variable {s}

/-- An entry in use behind the removal is one whose time is not over. -/
theorem dnsCacheExpire_valid {i : Fin 8} (h : (s.dnsCacheExpire.dnsCache i).valid) :
    s.dnsCacheExpire.dnsCache i = s.dnsCache i ∧ s.currentTimeMs < (s.dnsCache i).expiresMs := by
  rw [dnsCacheExpire_dnsCache] at h ⊢
  split at h
  · cases h
  · rename_i hexpired
    rw [if_neg hexpired]
    refine ⟨rfl, UInt64.not_le.1 fun hle => hexpired ?_⟩
    simp [dnsEntryExpired, h, hle]

theorem dnsCacheFind_eq_none {name : CString} (h : s.dnsCacheFind name = none) (i : Fin 8)
    (hvalid : (s.dnsCache i).valid) : dnsFold (s.dnsCache i).name ≠ dnsFold name := by
  intro heq
  have := List.find?_eq_none.1 h i (List.mem_finRange i)
  simp [hvalid, (dnsNamesEqual_iff _ _).2 heq] at this

theorem dnsCacheFind_eq_some {name : CString} {i : Fin 8} (h : s.dnsCacheFind name = some i) :
    (s.dnsCache i).valid ∧ dnsFold (s.dnsCache i).name = dnsFold name := by
  have := List.find?_some h
  simp only [Bool.and_eq_true, dnsNamesEqual_iff] at this
  exact this

/-- What storing an answer does to the cache: one entry at most is written. -/
structure Stores (before : Fin 8 → NetDnsCacheEntry) (entry : NetDnsCacheEntry)
    (written : Option (Fin 8)) (cache : Fin 8 → NetDnsCacheEntry) : Prop where
  new : ∀ i, written = some i → cache i = entry
  old : ∀ i, written ≠ some i → (cache i).valid → cache i = before i
  unique : CacheUnique before → CacheUnique cache

section Stores

variable {before cache : Fin 8 → NetDnsCacheEntry} {entry : NetDnsCacheEntry}

section

variable (h : ∀ i, (cache i).valid → cache i = before i)
include h

/-- Entries that are kept keep the cache unique. -/
theorem CacheUnique.of_kept (hunique : CacheUnique before) : CacheUnique cache := by
  intro i j hi hj hname
  have hi' := h i hi
  have hj' := h j hj
  rw [hi'] at hi hname
  rw [hj'] at hj hname
  exact hunique i j hi hj hname

theorem Stores.nothing : Stores before entry none cache :=
  ⟨nofun, fun i _ => h i, CacheUnique.of_kept h⟩

theorem Stores.update (i : Fin 8) (hother : CacheUnique cache → ∀ j ≠ i, (cache j).valid →
      dnsFold (cache j).name ≠ dnsFold entry.name) :
    Stores before entry (some i) (update cache i entry) where
  new j hj := by
    cases hj
    exact update_self ..
  old j hj hvalid := by
    have hne : j ≠ i := fun hji => hj (congrArg some hji.symm)
    rw [update_of_ne hne] at hvalid ⊢
    exact h j hvalid
  unique hunique := by
    have hkept := CacheUnique.of_kept h hunique
    intro j k hj hk hname
    by_cases hji : j = i <;> by_cases hki : k = i
    · rw [hji, hki]
    · subst hji
      rw [update_self, update_of_ne hki] at hname
      rw [update_of_ne hki] at hk
      exact absurd hname.symm (hother hkept k hki hk)
    · subst hki
      rw [update_self, update_of_ne hji] at hname
      rw [update_of_ne hji] at hj
      exact absurd hname (hother hkept j hji hj)
    · rw [update_of_ne hji] at hj hname
      rw [update_of_ne hki] at hk hname
      exact hkept j k hj hk hname

end

end Stores

variable (s)

section

variable (name : CString) (negative : Bool) (address : UInt32) (responseCode : UInt8)
  (ttlSeconds : UInt32)

/-- Storing an answer writes one entry at most, and none if the answer may not be kept. -/
theorem dnsCacheStore_stores : ∃ written, Stores s.dnsCache
      (dnsCacheEntry s.currentTimeMs name negative address responseCode ttlSeconds) written
      (s.dnsCacheStore name negative address responseCode ttlSeconds).dnsCache ∧
      (ttlSeconds = 0 → written = none) := by
  unfold dnsCacheStore
  split
  · exact ⟨none, .nothing fun _ _ => rfl, fun _ => rfl⟩
  rename_i httl
  have hkept : ∀ i, (s.dnsCacheExpire.dnsCache i).valid →
      s.dnsCacheExpire.dnsCache i = s.dnsCache i := fun i hi => (dnsCacheExpire_valid hi).1
  have htime : s.dnsCacheExpire.currentTimeMs = s.currentTimeMs :=
    (sameButResolver_dnsCacheExpire s).currentTimeMs_eq
  generalize s.dnsCacheExpire = expired at hkept htime
  unfold dnsCacheInsert
  split
  · rename_i i hfind
    refine ⟨some i, ?_, fun h => absurd h httl⟩
    rw [dnsCachePut, withDnsCache_dnsCache, htime]
    refine .update hkept i fun hunique j hj hvalid hname => hj ?_
    obtain ⟨hi, hiname⟩ := dnsCacheFind_eq_some hfind
    exact hunique j i hvalid hi (hname.trans hiname.symm)
  rename_i hfind
  split
  · exact ⟨none, .nothing hkept, fun _ => rfl⟩
  · rename_i i _
    refine ⟨some i, ?_, fun h => absurd h httl⟩
    have hcount : (expired.dnsCountEviction i).dnsCache = expired.dnsCache := rfl
    have hcountTime : (expired.dnsCountEviction i).currentTimeMs = expired.currentTimeMs := rfl
    rw [dnsCachePut, withDnsCache_dnsCache, hcount, hcountTime, htime]
    exact .update hkept i fun _ j _ hvalid => dnsCacheFind_eq_none hfind j hvalid

theorem dnsCacheStore_dns :
    (s.dnsCacheStore name negative address responseCode ttlSeconds).dns = s.dns := by
  unfold dnsCacheStore
  split
  · rfl
  have hdns : s.dnsCacheExpire.dns = s.dns := withDnsCache_dns _ _
  unfold dnsCacheInsert
  split
  · rw [dnsCachePut, withDnsCache_dns, hdns]
  split
  · exact hdns
  · rw [dnsCachePut, withDnsCache_dns]
    exact hdns

end

/-! ### What a response does -/

theorem dnsEndPositive_dns (address ttlSeconds : UInt32) :
    (s.dnsEndPositive address ttlSeconds).dns =
      { s.dns with resultAddress := address, ttlSeconds := ttlSeconds, state := .resolved } := by
  rw [dnsEndPositive, dnsCacheStore_dns, withDns_dns]

theorem stores_withDns (dns : NetDnsClient) (name : CString) (negative : Bool) (address : UInt32)
    (responseCode : UInt8) (ttlSeconds : UInt32) : ∃ written, Stores s.dnsCache
      (dnsCacheEntry s.currentTimeMs name negative address responseCode ttlSeconds) written
      ((s.withDns dns).dnsCacheStore name negative address responseCode ttlSeconds).dnsCache := by
  obtain ⟨written, h, -⟩ :=
    dnsCacheStore_stores (s.withDns dns) name negative address responseCode ttlSeconds
  rw [withDns_dnsCache, withDns_currentTimeMs] at h
  exact ⟨written, h⟩

theorem dnsEndPositive_stores (address ttlSeconds : UInt32) : ∃ written, Stores s.dnsCache
      (dnsCacheEntry s.currentTimeMs s.dns.name false address 0 ttlSeconds) written
      (s.dnsEndPositive address ttlSeconds).dnsCache :=
  stores_withDns s _ _ _ _ _ _

theorem dnsEndNegative_dns (ttlSeconds : UInt32) : (s.dnsEndNegative ttlSeconds).dns =
      { s.dns with ttlSeconds := ttlSeconds, state := .notFound } := by
  unfold dnsEndNegative
  rw [dnsEnd, withDns_dns]
  split
  · rw [dnsCacheStore_dns, withDns_dns]
  · rw [withDns_dns]

theorem dnsEndNegative_stores (ttlSeconds : UInt32) : ∃ written, Stores s.dnsCache
      (dnsCacheEntry s.currentTimeMs s.dns.name true 0 s.dns.responseCode ttlSeconds) written
      (s.dnsEndNegative ttlSeconds).dnsCache := by
  unfold dnsEndNegative
  rw [dnsEnd, withDns_dnsCache]
  split
  · exact stores_withDns s _ _ _ _ _ _
  · exact ⟨none, .nothing fun i _ => by rw [withDns_dnsCache]⟩

variable {s}

/-- The entry for what the resolver has found out about a name. -/
def answerEntry (nowMs : UInt64) (dns : NetDnsClient) : NetDnsCacheEntry :=
  dnsCacheEntry nowMs dns.name (dns.state = .notFound) dns.resultAddress dns.responseCode
    dns.ttlSeconds

/-- What an accepted response leaves behind: the resolver with its result, and at most one new
entry, for that result. -/
structure Answers (s s' : NetStack) (message : Memory) (messageSize : ℕ) : Prop where
  valid : DnsMessageValid s.dns.name message messageSize
  state : s'.dns.state = .resolved ∨ s'.dns.state = .notFound
  name : s'.dns.name = s.dns.name
  code : s'.dns.responseCode = dnsResponseCode message
  code_eq : s'.dns.responseCode = 0 ∨ s'.dns.responseCode = 3
  negative_ttl : s'.dns.state = .notFound →
    s'.dns.ttlSeconds ≤ netDnsNegativeTtlMaxSeconds ∧ s'.dns.resultAddress = s.dns.resultAddress
  stores : ∃ written,
    Stores s.dnsCache (answerEntry s.currentTimeMs s'.dns) written s'.dnsCache

/-- The resolver gives up a query. -/
structure Fails (s s' : NetStack) : Prop where
  state : s'.dns.state = .malformedResponse ∨ s'.dns.state = .serverError
  cache : s'.dnsCache = s.dnsCache

theorem DnsOutcome.cases {s' : NetStack}
    (h : s.DnsOutcome message messageSize s') : s.Fails s' ∨ s.Answers s' message messageSize := by
  have hcache (code : UInt8) : (s.dnsNoteCode code).dnsCache = s.dnsCache := withDns_dnsCache s _
  have htime (code : UInt8) : (s.dnsNoteCode code).currentTimeMs = s.currentTimeMs :=
    withDns_currentTimeMs s _
  have hdns (code : UInt8) : (s.dnsNoteCode code).dns = { s.dns with responseCode := code } :=
    withDns_dns s _
  cases h with
  | @failed code state state_eq =>
    refine .inl ⟨?_, ?_⟩
    · rw [dnsEnd, withDns_dns]
      exact state_eq
    · rw [dnsEnd, withDns_dnsCache, hcache]
  | @positive address ttlSeconds valid code =>
    have hresult := dnsEndPositive_dns (s.dnsNoteCode 0) address ttlSeconds
    obtain ⟨written, hstores⟩ := dnsEndPositive_stores (s.dnsNoteCode 0) address ttlSeconds
    generalize (s.dnsNoteCode 0).dnsEndPositive address ttlSeconds = s' at hresult hstores ⊢
    rw [hcache, htime, hdns] at hstores
    rw [hdns] at hresult
    refine .inr ⟨valid, ?_, ?_, ?_, ?_, ?_, written, ?_⟩
    · rw [hresult]
      exact .inl rfl
    · rw [hresult]
    · rw [hresult, code]
    · rw [hresult]
      exact .inl rfl
    · rw [hresult]
      exact nofun
    · rw [answerEntry, hresult]
      exact hstores
  | @negative ttlSeconds valid code ttl_le =>
    have hresult := dnsEndNegative_dns (s.dnsNoteCode (dnsResponseCode message)) ttlSeconds
    obtain ⟨written, hstores⟩ :=
      dnsEndNegative_stores (s.dnsNoteCode (dnsResponseCode message)) ttlSeconds
    rw [hcache, htime, hdns] at hstores
    rw [hdns] at hresult
    refine .inr ⟨valid, ?_, ?_, ?_, ?_, ?_, written, ?_⟩
    · rw [hresult]
      exact .inr rfl
    · rw [hresult]
    · rw [hresult]
    · rw [hresult]
      exact code
    · rw [hresult]
      exact fun _ => ⟨ttl_le, rfl⟩
    · rw [answerEntry, hresult]
      exact hstores

/-! ### Frames -/

/-- A frame that belongs to the exchange of the current query. -/
def IsExchangeFrame (s : NetStack) (frame : Memory) : Prop :=
  IsDatagram frame dnsServerPort s.dns.sourcePort ∧
    s.IsExchange (frameSourceIp frame) dnsServerPort s.dns.sourcePort (datagramData frame)

theorem IsExchangeFrame.not_dhcp {frame : Memory} (h : s.IsExchangeFrame frame) :
    ¬ IsDatagram frame dhcpServerPort dhcpClientPort := by
  rintro ⟨-, -, hsource, -⟩
  exact absurd (hsource.symm.trans h.1.2.2.1) (by decide)

/-- The resolver and the cache are the same, and so is the configuration. -/
structure SameResolver (s s' : NetStack) : Prop where
  dns_eq : s'.dns = s.dns
  dnsCache_eq : s'.dnsCache = s.dnsCache
  ipv4_eq : s'.ipv4 = s.ipv4

/-- The cache is cleared, and a query may have been given up. -/
structure CutsOff (s s' : NetStack) : Prop where
  dns : s'.dns = s.dns ∨ s'.dns = s.dns.cutOff
  dnsCache : s'.dnsCache = fun _ => default

variable (s)

theorem cutsOff_netDhcpStart (transactionId : UInt32) :
    s.CutsOff (s.netDhcpStart transactionId) := by
  obtain ⟨id, attempts, next, hc⟩ := control_netDhcpStart s transactionId
  rw [control_netClearIpv4] at hc
  exact ⟨.inr (dns_of_control hc), dnsCache_of_control hc⟩

theorem cutsOff_dhcpRestart : s.CutsOff s.dhcpRestart := cutsOff_netDhcpStart s _

theorem sameResolver_dhcpReceiveOffer (options : DhcpOptions) (offeredIp serverIp : UInt32) :
    s.SameResolver (s.dhcpReceiveOffer options offeredIp serverIp) := by
  obtain ⟨dhcp, hc, -⟩ := control_dhcpReceiveOffer s options offeredIp serverIp
  exact ⟨dns_of_control hc, dnsCache_of_control hc, ipv4_of_control hc⟩

variable {s}

/-- A message for the DHCP client leaves the resolver and the cache alone, unless it changes the
configuration of the interface. -/
theorem dhcpReceive_resolver {sourceIp : UInt32} {packet : Memory} {packetSize : ℕ} {ok : Bool}
    {s' : NetStack} (h : s.dhcpReceive sourceIp packet packetSize = (ok, s')) :
    s.SameResolver s' ∨ s.CutsOff s' := by
  cases dhcpReceive_outcome h with
  | rejected => exact .inl ⟨rfl, rfl, rfl⟩
  | offer reply state => exact .inl (sameResolver_dhcpReceiveOffer s _ _ _)
  | nak takes => exact .inr (cutsOff_dhcpRestart s)
  | @ack options _ _ takes eq =>
    cases dhcpReceiveAck_outcome eq with
    | noAddress => exact .inl ⟨rfl, rfl, rfl⟩
    | noLease usable zero =>
      exact .inl ⟨withDhcp_dns s _, withDhcp_dnsCache s _, withDhcp_ipv4 s _⟩
    | bound usable =>
      obtain ⟨dhcp, arp, hc, -, -⟩ := control_dhcpBound s options (u32At packet 16)
        (dhcpServer options sourceIp)
      by_cases hsame : s.ipv4 = s.dhcpConfiguration options (s.dhcpAckAddress (u32At packet 16))
      · rw [if_pos hsame] at hc
        exact .inl ⟨dns_of_control hc, dnsCache_of_control hc,
          (ipv4_of_control hc).trans hsame.symm⟩
      · rw [if_neg hsame] at hc
        exact .inr ⟨.inl (dns_of_control hc), dnsCache_of_control hc⟩

/-- What a received frame can do to the resolver and the cache. -/
inductive FrameEffect (s : NetStack) (frame : Memory) (s' : NetStack) : Prop
  | same (same : s.SameResolver s')
  | cut (ports : IsDatagram frame dhcpServerPort dhcpClientPort) (cuts : s.CutsOff s')
  | fails (exchange : s.IsExchangeFrame frame) (fails : s.Fails s') (ipv4 : s'.ipv4 = s.ipv4)
  | answers (exchange : s.IsExchangeFrame frame)
      (answers : s.Answers s' (datagramData frame) (datagramDataSize frame))
      (ipv4 : s'.ipv4 = s.ipv4)

variable (s)

theorem netInput_effect (frame : Memory) (frameSize : ℕ) :
    s.FrameEffect frame (s.netInput frame frameSize).2 := by
  have received := received_netInput s frame frameSize
  generalize (s.netInput frame frameSize).2 = s' at received ⊢
  cases received with
  | quiet same => exact .same ⟨same.dns_eq, same.dnsCache_eq, same.ipv4_eq⟩
  | @dhcp s₁ _ same ports hc =>
    rcases hr : s₁.dhcpReceive (frameSourceIp frame) (datagramData frame)
      (datagramDataSize frame) with ⟨ok, s₂⟩
    rw [hr] at hc
    rcases dhcpReceive_resolver hr with h | h
    · exact .same ⟨(dns_of_control hc).trans (h.dns_eq.trans same.dns_eq),
        (dnsCache_of_control hc).trans (h.dnsCache_eq.trans same.dnsCache_eq),
        (ipv4_of_control hc).trans (h.ipv4_eq.trans same.ipv4_eq)⟩
    · refine .cut ports ⟨?_, (dnsCache_of_control hc).trans h.dnsCache⟩
      have hd : s'.dns = s₂.dns := dns_of_control hc
      rw [hd, ← same.dns_eq]
      exact h.dns
  | @dns s₁ _ same ports hc =>
    have hipv4 := (resolves_dnsReceive s₁ (frameSourceIp frame) dnsServerPort s.dns.sourcePort
      (datagramData frame) (datagramDataSize frame)).same.ipv4_eq
    have outcome := dnsReceive_outcome s₁ (frameSourceIp frame) dnsServerPort s.dns.sourcePort
      (datagramData frame) (datagramDataSize frame)
    generalize (s₁.dnsReceive (frameSourceIp frame) dnsServerPort s.dns.sourcePort
      (datagramData frame) (datagramDataSize frame)).2 = s₂ at hc hipv4 outcome
    have hd : s'.dns = s₂.dns := dns_of_control hc
    have hcache : s'.dnsCache = s₂.dnsCache := dnsCache_of_control hc
    have hi : s'.ipv4 = s.ipv4 := (ipv4_of_control hc).trans (hipv4.trans same.ipv4_eq)
    rcases outcome with rfl | ⟨exchange, outcome⟩
    · exact .same ⟨hd.trans same.dns_eq, hcache.trans same.dnsCache_eq, hi⟩
    have hexchange : s.IsExchangeFrame frame := by
      refine ⟨ports, ?_⟩
      obtain ⟨hpending, hip, hsource, -, hid⟩ := exchange
      rw [same.dns_eq] at hpending hid
      rw [same.ipv4_eq] at hip
      exact ⟨hpending, hip, hsource, rfl, hid⟩
    rcases outcome.cases with h | h
    · refine .fails hexchange ⟨hd ▸ h.state, ?_⟩ hi
      rw [hcache, h.cache, same.dnsCache_eq]
    · refine .answers hexchange ?_ hi
      obtain ⟨valid, state, name, code, code_eq, negative_ttl, stores⟩ := h
      rw [same.dns_eq] at valid name negative_ttl
      rw [same.dnsCache_eq, same.currentTimeMs_eq] at stores
      rw [← hd] at state name code code_eq negative_ttl stores
      rw [← hcache] at stores
      exact ⟨valid, state, name, code, code_eq, negative_ttl, stores⟩

/-- An entry was written by a call. -/
def WritesEntry (s s' : NetStack) (i : Fin 8) : Prop :=
  (s'.dnsCache i).valid ∧ s'.dnsCache i ≠ s.dnsCache i

/-- The resolver came to a result by a call. -/
def ComesToResult (s s' : NetStack) : Prop :=
  s'.dns.state ≠ s.dns.state ∧ (s'.dns.state = .resolved ∨ s'.dns.state = .notFound)

theorem CutsOff.not_writesEntry {s s' : NetStack} (h : s.CutsOff s') (i : Fin 8) :
    ¬ s.WritesEntry s' i := by
  rintro ⟨hvalid, -⟩
  rw [h.dnsCache] at hvalid
  cases hvalid

theorem CutsOff.not_comesToResult {s s' : NetStack} (h : s.CutsOff s') : ¬ s.ComesToResult s' := by
  rintro ⟨hne, hresult⟩
  rcases h.dns with hd | hd
  · exact hne (congrArg state hd)
  · rw [hd, cutOff] at hne hresult
    split at hne
    · rename_i hpending
      rw [if_pos hpending] at hresult
      rcases hresult with hresult | hresult <;> cases hresult
    · exact hne rfl

/-- **No answers from outside of the exchange.**  A frame that is not a message for the DHCP client
and does not belong to the exchange of a pending query leaves the resolver and the cache alone; a
message for the DHCP client leaves them alone or clears the cache and ends a query without a result.
The resolver comes to a result, or an entry is written, only by a valid message of the exchange, and
a written entry is for the name that was asked for. -/
theorem netInput_not_injected (s : NetStack) (frame : Memory) (frameSize : ℕ) :
    (¬ IsDatagram frame dhcpServerPort dhcpClientPort → ¬ s.IsExchangeFrame frame →
      (s.netInput frame frameSize).2.dns = s.dns ∧
        (s.netInput frame frameSize).2.dnsCache = s.dnsCache) ∧
    (IsDatagram frame dhcpServerPort dhcpClientPort →
      ((s.netInput frame frameSize).2.dns = s.dns ∧
        (s.netInput frame frameSize).2.dnsCache = s.dnsCache) ∨
      s.CutsOff (s.netInput frame frameSize).2) ∧
    ((s.ComesToResult (s.netInput frame frameSize).2 ∨
        ∃ i, s.WritesEntry (s.netInput frame frameSize).2 i) →
      s.IsExchangeFrame frame ∧
        DnsMessageValid s.dns.name (datagramData frame) (datagramDataSize frame)) ∧
    ∀ i, s.WritesEntry (s.netInput frame frameSize).2 i →
      ((s.netInput frame frameSize).2.dnsCache i).name = s.dns.name := by
  have effect := netInput_effect s frame frameSize
  cases effect with
  | same same =>
    refine ⟨fun _ _ => ⟨same.dns_eq, same.dnsCache_eq⟩,
      fun _ => .inl ⟨same.dns_eq, same.dnsCache_eq⟩, ?_, ?_⟩
    · rintro (⟨hne, -⟩ | ⟨i, -, hne⟩)
      · exact absurd (congrArg state same.dns_eq) hne
      · exact absurd (congrFun same.dnsCache_eq i) hne
    · rintro i ⟨-, hne⟩
      exact absurd (congrFun same.dnsCache_eq i) hne
  | cut ports cuts =>
    refine ⟨fun h => absurd ports h, fun _ => .inr cuts, ?_, fun i hi =>
      absurd hi (cuts.not_writesEntry i)⟩
    rintro (h | ⟨i, hi⟩)
    · exact absurd h cuts.not_comesToResult
    · exact absurd hi (cuts.not_writesEntry i)
  | fails exchange fails ipv4 =>
    refine ⟨fun _ h => absurd exchange h, fun h => absurd h exchange.not_dhcp, ?_, ?_⟩
    · rintro (⟨-, hresult⟩ | ⟨i, -, hne⟩)
      · rcases fails.state with h | h <;> rw [h] at hresult <;> rcases hresult with hr | hr <;>
          cases hr
      · exact absurd (congrFun fails.cache i) hne
    · rintro i ⟨-, hne⟩
      exact absurd (congrFun fails.cache i) hne
  | answers exchange answers ipv4 =>
    refine ⟨fun _ h => absurd exchange h, fun h => absurd h exchange.not_dhcp,
      fun _ => ⟨exchange, answers.valid⟩, ?_⟩
    rintro i ⟨hvalid, hne⟩
    obtain ⟨written, hstores⟩ := answers.stores
    by_cases hi : written = some i
    · rw [hstores.new i hi]
      exact answers.name
    · exact absurd (hstores.old i hi hvalid) hne

/-- A client that renews its lease while the resolver waits for a response and the cache holds an
entry. -/
def askingClient : NetStack :=
  (renewingClient.withDns { (default : NetDnsClient) with
    state := .pending
    transactionId := 1
    sourcePort := 49153 }).withDnsCache fun i =>
      if i.val = 0 then dnsCacheEntry 1800000 (CString.ofBytes [0x61]) false 0x0A000003 0 60
      else default

/-- A NAK comes from port 67; it ends the query and clears the cache. -/
theorem nak_ends_query :
    u16At (framePayload (byteAt (sampleFrame dhcpMessageNak))) 0 ≠ dnsServerPort ∧
    askingClient.dns.state = .pending ∧ (askingClient.dnsCache 0).valid = true ∧
    (askingClient.netInput (byteAt (sampleFrame dhcpMessageNak)) 286).2.dns.state = .timedOut ∧
    ((askingClient.netInput (byteAt (sampleFrame dhcpMessageNak)) 286).2.dnsCache 0).valid =
      false := by
  decide +kernel

end NetStack

end Nostalux.Net
