import Nostalux.Net.Resolver

/-!
# The DNS cache over time

Every entry in use goes back to a response that was accepted earlier in the run, and nothing has
happened since then that would make it wrong: no other response for the name was accepted, and the
configuration of the interface is still the same.

* `resolverStep_run`: what a call can do to the resolver and the cache;
* `CacheInvariant`: the names are unique, a pending query has no entry, and every entry has its
  origin;
* `dnsCache_sound`: an answer from the cache is the answer of the latest accepted response, given
  before its time to live was over.
-/

namespace Nostalux.Net

open BigEndian NetCall

namespace NetStack

variable {s s' : NetStack}

/-! ### One call -/

/-- Entries only go out of use, or are used again; all of them do if the configuration changes. -/
structure Fades (s s' : NetStack) : Prop where
  kept : ∀ i, (s'.dnsCache i).valid →
    s'.dnsCache i = { s.dnsCache i with lastUsedMs := (s'.dnsCache i).lastUsedMs }
  ipv4 : ∀ i, (s'.dnsCache i).valid → s'.ipv4 = s.ipv4

theorem Fades.valid (h : s.Fades s') {i : Fin 8} (hi : (s'.dnsCache i).valid) :
    (s.dnsCache i).valid := by
  rw [h.kept i hi] at hi
  exact hi

theorem Fades.name (h : s.Fades s') {i : Fin 8} (hi : (s'.dnsCache i).valid) :
    (s'.dnsCache i).name = (s.dnsCache i).name := by
  rw [h.kept i hi]

variable {s₁ s₂ s₃ : NetStack}

theorem Fades.trans (h : s₁.Fades s₂) (h' : s₂.Fades s₃) : s₁.Fades s₃ where
  kept i hi := by
    rw [h'.kept i hi, h.kept i (h'.valid hi)]
  ipv4 i hi := (h'.ipv4 i hi).trans (h.ipv4 i (h'.valid hi))

theorem Fades.of_eq (hcache : s'.dnsCache = s.dnsCache) (hipv4 : s'.ipv4 = s.ipv4) :
    s.Fades s' where
  kept i _ := by rw [hcache]
  ipv4 _ _ := hipv4

theorem Fades.of_cleared (hcache : s'.dnsCache = fun _ => default) : s.Fades s' where
  kept i hi := by
    rw [hcache] at hi
    cases hi
  ipv4 i hi := by
    rw [hcache] at hi
    cases hi

/-- Entries that are kept keep their names, so that these stay different. -/
theorem Fades.unique (h : s.Fades s') (hunique : CacheUnique s.dnsCache) :
    CacheUnique s'.dnsCache := by
  intro i j hi hj hname
  rw [h.name hi, h.name hj] at hname
  exact hunique i j (h.valid hi) (h.valid hj) hname

/-- Entries fade, and a query that is pending was pending before. -/
structure Quiet (s s' : NetStack) : Prop where
  fades : s.Fades s'
  pending : s'.dns.state = .pending → s.dns.state = .pending ∧ s'.dns.name = s.dns.name ∧
    s'.dns.resultAddress = s.dns.resultAddress

theorem Quiet.trans (h : s₁.Quiet s₂) (h' : s₂.Quiet s₃) : s₁.Quiet s₃ where
  fades := h.fades.trans h'.fades
  pending hpending := by
    obtain ⟨hstate, hname, haddress⟩ := h'.pending hpending
    obtain ⟨hstate₁, hname₁, haddress₁⟩ := h.pending hstate
    exact ⟨hstate₁, hname.trans hname₁, haddress.trans haddress₁⟩

theorem SameResolver.quiet (h : s.SameResolver s') : s.Quiet s' where
  fades := .of_eq h.dnsCache_eq h.ipv4_eq
  pending hpending := by
    rw [h.dns_eq] at hpending ⊢
    exact ⟨hpending, rfl, rfl⟩

theorem sameResolver_of_control (h : s'.control = s.control) : s.SameResolver s' :=
  ⟨dns_of_control h, dnsCache_of_control h, ipv4_of_control h⟩

theorem SameButArp.sameResolver (h : s.SameButArp s') : s.SameResolver s' :=
  ⟨h.dns_eq, h.dnsCache_eq, h.ipv4_eq⟩

theorem NetDnsClient.cutOff_not_pending (dns : NetDnsClient) : dns.cutOff.state ≠ .pending := by
  unfold NetDnsClient.cutOff
  split
  · exact nofun
  · assumption

theorem CutsOff.quiet (h : s.CutsOff s') : s.Quiet s' where
  fades := .of_cleared h.dnsCache
  pending hpending := by
    rcases h.dns with hd | hd
    · rw [hd] at hpending ⊢
      exact ⟨hpending, rfl, rfl⟩
    · rw [hd] at hpending
      exact absurd hpending (NetDnsClient.cutOff_not_pending s.dns)

theorem Quiet.of_not_pending (h : s.Fades s') (hstate : s'.dns.state ≠ .pending) : s.Quiet s' :=
  ⟨h, fun hpending => absurd hpending hstate⟩

variable (s)

theorem fades_dnsCacheExpire : s.Fades s.dnsCacheExpire where
  kept i hi := by rw [(dnsCacheExpire_valid hi).1]
  ipv4 _ _ := (sameButResolver_dnsCacheExpire s).ipv4_eq

theorem quiet_dnsCacheExpire : s.Quiet s.dnsCacheExpire where
  fades := fades_dnsCacheExpire s
  pending hpending := by
    have hd : s.dnsCacheExpire.dns = s.dns := withDnsCache_dns _ _
    exact ⟨hpending, rfl, rfl⟩

/-- The end of a lease cuts the resolver off; nothing else of the client concerns it. -/
theorem quiet_tickDhcp : s.Quiet s.tickDhcp := by
  rcases tickDhcp_cases s with ⟨-, -, hrestart⟩ | ⟨-, state, attempts, next, hc, -⟩
  · rw [hrestart]
    exact (cutsOff_dhcpRestart s).quiet
  · exact SameResolver.quiet ⟨dns_of_control hc, dnsCache_of_control hc, ipv4_of_control hc⟩

theorem quiet_dnsSendQuery : s.Quiet s.dnsSendQuery.2 := by
  obtain ⟨attempts, next, hc⟩ := control_dnsSendQuery s
  refine ⟨.of_eq (dnsCache_of_control hc) (ipv4_of_control hc), fun hpending => ?_⟩
  rw [dns_of_control hc] at hpending ⊢
  exact ⟨hpending, rfl, rfl⟩

/-- A query is repeated or given up. -/
theorem quiet_tickDns : s.Quiet s.tickDns := by
  unfold tickDns
  split
  · exact SameResolver.quiet ⟨rfl, rfl, rfl⟩
  split
  · refine .of_not_pending (.of_eq (withDns_dnsCache s _) (withDns_ipv4 s _)) ?_
    rw [dnsEnd, withDns_dns]
    simp
  · exact quiet_dnsSendQuery s

/-- A tick lets entries fade. -/
theorem quiet_netTick (nowMs : UInt64) : s.Quiet (s.netTick nowMs) := by
  have htime : s.SameResolver (s.withTime nowMs) := ⟨rfl, rfl, rfl⟩
  have harp (s : NetStack) : s.SameResolver s.arpExpire := (sameButArp_withArp s _).sameResolver
  have hpending (s : NetStack) := sameResolver_of_control (control_tickPendingArp s)
  have hecho (s : NetStack) := sameResolver_of_control (control_tickEcho s)
  exact htime.quiet.trans ((quiet_dnsCacheExpire _).trans ((harp _).quiet.trans
    ((hpending _).quiet.trans ((quiet_tickDhcp _).trans ((quiet_tickDns _).trans
      (hecho _).quiet)))))

/-- A new configuration clears the cache. -/
theorem quiet_netConfigureIpv4 (config : NetIpv4Config) : s.Quiet (s.netConfigureIpv4 config) := by
  obtain ⟨arp, hc⟩ := control_netConfigureIpv4 s config
  by_cases hsame : s.ipv4 = config
  · rw [if_pos hsame] at hc
    exact SameResolver.quiet
      ⟨dns_of_control hc, dnsCache_of_control hc, (ipv4_of_control hc).trans hsame.symm⟩
  · rw [if_neg hsame] at hc
    exact CutsOff.quiet ⟨.inl (dns_of_control hc), dnsCache_of_control hc⟩

theorem cutsOff_netClearIpv4 : s.CutsOff s.netClearIpv4 :=
  ⟨.inr (dns_of_control (control_netClearIpv4 s)), dnsCache_of_control (control_netClearIpv4 s)⟩

theorem quiet_netDnsCancel : s.Quiet s.netDnsCancel.2 := by
  have hsame := sameButResolver_netDnsCancel s
  unfold netDnsCancel at hsame ⊢
  split
  · exact SameResolver.quiet ⟨rfl, rfl, rfl⟩
  dsimp only
  refine .of_not_pending (.of_eq ?_ ?_) ?_
  · rw [netDnsClearResult, withDns_dnsCache]
    split <;> rfl
  · rw [netDnsClearResult, withDns_ipv4]
    split <;> rfl
  · rw [netDnsClearResult, withDns_dns]
    exact nofun

/-- A new query, for which there is no entry. -/
structure Asks (s s' : NetStack) : Prop where
  fades : s.Fades s'
  pending : s'.dns.state = .pending
  resultAddress : s'.dns.resultAddress = 0
  free : ∀ i, (s'.dnsCache i).valid → dnsFold (s'.dnsCache i).name ≠ dnsFold s'.dns.name

/-- Behind a look-up without an entry a query is begun, or the resolver is not usable. -/
theorem dnsBeginQuery_cases (name : CString) (transactionId : UInt16)
    (hfree : s.dnsCacheFind name = none) :
    (s.dnsBeginQuery name transactionId).1 = false ∧
      s.SameResolver (s.dnsBeginQuery name transactionId).2 ∨
    s.Asks (s.dnsBeginQuery name transactionId).2 := by
  unfold dnsBeginQuery
  split
  · exact .inl ⟨rfl, rfl, rfl, rfl⟩
  right
  generalize s.dnsTransactionId transactionId = id
  obtain ⟨attempts, next, hc⟩ := control_dnsSendQuery (s.dnsCountMiss.dnsAsk name id)
  have hcache : (s.dnsCountMiss.dnsAsk name id).dnsCache = s.dnsCache := rfl
  have hipv4 : (s.dnsCountMiss.dnsAsk name id).ipv4 = s.ipv4 := rfl
  have hname : (s.dnsCountMiss.dnsAsk name id).dns.name = name := rfl
  have hstate : (s.dnsCountMiss.dnsAsk name id).dns.state = .pending := rfl
  have haddress : (s.dnsCountMiss.dnsAsk name id).dns.resultAddress = 0 := rfl
  generalize s.dnsCountMiss.dnsAsk name id = asked at hc hcache hipv4 hname hstate haddress ⊢
  have hd := dns_of_control hc
  have hcache' := (dnsCache_of_control hc).trans hcache
  have hipv4' := (ipv4_of_control hc).trans hipv4
  refine ⟨.of_eq hcache' hipv4', ?_, ?_, fun i hi => ?_⟩
  · rw [hd]
    exact hstate
  · rw [hd]
    exact haddress
  · rw [hd]
    rw [hcache'] at hi ⊢
    have hfold : (asked.dns.schedule attempts next).name = name := hname
    rw [show NetDnsClient.name _ = name from hfold]
    exact dnsCacheFind_eq_none hfree i hi

variable {s}

theorem Asks.of_fades (h : s₁.Fades s₂) (h' : s₂.Asks s₃) : s₁.Asks s₃ :=
  { h' with fades := h.trans h'.fades }

/-- An entry whose time is not over has a second left. -/
theorem dnsCacheRemainingSeconds_ne_zero {expiresMs nowMs : UInt64} (h : nowMs < expiresMs) :
    dnsCacheRemainingSeconds expiresMs nowMs ≠ 0 := by
  have hlt : nowMs.toNat < expiresMs.toNat := UInt64.lt_iff_toNat_lt.1 h
  have hsub : (expiresMs - nowMs).toNat = expiresMs.toNat - nowMs.toNat :=
    UInt64.toNat_sub_of_le _ _ (UInt64.le_of_lt h)
  have hmax := expiresMs.toNat_lt
  unfold dnsCacheRemainingSeconds
  rw [if_neg (UInt64.not_le.2 h)]
  dsimp only
  generalize expiresMs - nowMs = remaining at hsub
  -- at least one second is left after rounding up
  have hseconds : 0 < (remaining / 1000 + if remaining % 1000 ≠ 0 then 1 else 0).toNat := by
    by_cases hmod : remaining % 1000 = 0
    · have : remaining.toNat % 1000 = 0 := by simpa using congrArg UInt64.toNat hmod
      simp only [hmod, ne_eq, not_true_eq_false, if_false, UInt64.toNat_add, UInt64.toNat_div,
        UInt64.reduceToNat]
      omega
    · simp only [hmod, ne_eq, not_false_eq_true, if_true, UInt64.toNat_add, UInt64.toNat_div,
        UInt64.reduceToNat]
      omega
  generalize (remaining / 1000 + if remaining % 1000 ≠ 0 then 1 else 0) = seconds at hseconds
  split
  · decide
  · rename_i hle
    intro hzero
    have hle : seconds.toNat ≤ 4294967295 := by
      simpa using UInt64.le_iff_toNat_le.1 (UInt64.not_lt.1 hle)
    have : seconds.toNat % 4294967296 = 0 := by simpa using congrArg UInt32.toNat hzero
    omega

/-- The resolver gives the answer of an entry for the name whose time is not over. -/
structure AnswersFrom (s : NetStack) (i : Fin 8) (asked : CString) (s' : NetStack) : Prop where
  quiet : s.Quiet s'
  valid : (s.dnsCache i).valid
  fresh : s.currentTimeMs < (s.dnsCache i).expiresMs
  name : dnsFold (s.dnsCache i).name = dnsFold asked
  asked_eq : s'.dns.name = asked
  state : s'.dns.state = if (s.dnsCache i).negative then .notFound else .resolved
  address : s'.dns.resultAddress = (s.dnsCache i).address
  code : s'.dns.responseCode = (s.dnsCache i).responseCode

/-- The answer of an entry is given as it is stored. -/
theorem answersFrom_dnsAnswerCached {i : Fin 8} {name : CString}
    (hvalid : (s.dnsCache i).valid) (hfresh : s.currentTimeMs < (s.dnsCache i).expiresMs)
    (hname : dnsFold (s.dnsCache i).name = dnsFold name) (remaining : UInt32) :
    s.AnswersFrom i name (s.dnsAnswerCached i name remaining) := by
  unfold dnsAnswerCached
  generalize hused : withDnsCache _ _ = used
  have hcache : ∀ j, used.dnsCache j =
      { s.dnsCache j with lastUsedMs := (used.dnsCache j).lastUsedMs } := by
    intro j
    rw [← hused, withDnsCache_dnsCache]
    by_cases hj : j = i
    · subst hj
      rw [Function.update_self]
    · rw [Function.update_of_ne hj]
  have hipv4 : used.ipv4 = s.ipv4 := by rw [← hused, withDnsCache_ipv4]
  refine ⟨.of_not_pending ⟨fun j _ => ?_, fun _ _ => ?_⟩ ?_, hvalid, hfresh, hname, ?_, ?_, ?_, ?_⟩
  · rw [withDns_dnsCache]
    exact hcache j
  · rw [withDns_ipv4]
    exact hipv4
  · rw [withDns_dns]
    split <;> exact nofun
  · rw [withDns_dns]
  · rw [withDns_dns]
  · rw [withDns_dns]
  · rw [withDns_dns]

/-- What `net_dns_query` can do. -/
inductive QueryEffect (s : NetStack) (asked : Option CString) (result : Bool × NetStack) : Prop
  | refused (false_eq : result.1 = false) (quiet : s.Quiet result.2)
  | asks (asks : s.Asks result.2)
  | cached (i : Fin 8) (name : CString) (valid : dnsValidateAndCopyName asked = some name)
      (answers : s.AnswersFrom i name result.2)

/-- A query is refused, sent, or answered from an entry for the same name. -/
theorem netDnsQuery_effect (s : NetStack) (name : Option CString) (transactionId : UInt16) :
    s.QueryEffect name (s.netDnsQuery name transactionId) := by
  unfold netDnsQuery
  split
  · exact .refused rfl (SameResolver.quiet ⟨rfl, rfl, rfl⟩)
  rename_i name hasked
  have hexpire := quiet_dnsCacheExpire s
  have htime := (sameButResolver_dnsCacheExpire s).currentTimeMs_eq
  have hkept : ∀ i, (s.dnsCacheExpire.dnsCache i).valid →
      s.dnsCacheExpire.dnsCache i = s.dnsCache i ∧ s.currentTimeMs < (s.dnsCache i).expiresMs :=
    fun i hi => dnsCacheExpire_valid hi
  generalize s.dnsCacheExpire = expired at hexpire htime hkept
  unfold dnsLookUp
  split
  · rename_i hfree
    rcases dnsBeginQuery_cases expired name transactionId hfree with ⟨hfalse, hsame⟩ | hasks
    · exact .refused hfalse (hexpire.trans hsame.quiet)
    · exact .asks (.of_fades hexpire.fades hasks)
  · rename_i i hfind
    obtain ⟨hvalid, hname⟩ := dnsCacheFind_eq_some hfind
    obtain ⟨heq, hfresh⟩ := hkept i hvalid
    have hfresh' : expired.currentTimeMs < (expired.dnsCache i).expiresMs := by
      rw [htime, heq]
      exact hfresh
    rw [if_pos (dnsCacheRemainingSeconds_ne_zero hfresh')]
    have h := answersFrom_dnsAnswerCached hvalid hfresh' hname
      (dnsCacheRemainingSeconds (expired.dnsCache i).expiresMs expired.currentTimeMs)
    obtain ⟨quiet, -, -, -, hn, hstate, haddress, hcode⟩ := h
    rw [heq] at hvalid hname hstate haddress hcode
    exact .cached i name hasked
      ⟨hexpire.trans quiet, hvalid, hfresh, hname, hn, hstate, haddress, hcode⟩

/-- A frame is accepted as the response to the pending query. -/
def Accepts (s : NetStack) (call : NetCall) : Prop :=
  (∃ frame frameSize, call = .input frame frameSize) ∧ s.dns.state = .pending ∧
    ((call.run s).dns.state = .resolved ∨ (call.run s).dns.state = .notFound)

/-- What a call can do to the resolver and the cache. -/
inductive ResolverStep (s : NetStack) (call : NetCall) : Prop
  | quiet (quiet : s.Quiet (call.run s)) (other : ¬ s.Accepts call)
  | asks (asks : s.Asks (call.run s)) (other : ¬ s.Accepts call)
  | answers {frame : Memory} {frameSize : ℕ} (call_eq : call = .input frame frameSize)
      (accepts : s.Accepts call)
      (answers : s.Answers (call.run s) (datagramData frame) (datagramDataSize frame))
      (ipv4 : (call.run s).ipv4 = s.ipv4)

/-- Only a frame can be accepted. -/
theorem not_accepts {call : NetCall} (h : ∀ frame frameSize, call ≠ .input frame frameSize) :
    ¬ s.Accepts call := by
  rintro ⟨⟨frame, frameSize, rfl⟩, -⟩
  exact h frame frameSize rfl

variable (s)

/-- A frame is quiet, or it answers the pending query. -/
theorem resolverStep_input (frame : Memory) (frameSize : ℕ) :
    s.ResolverStep (.input frame frameSize) := by
  have other (h : (run s (.input frame frameSize)).dns.state = .pending ∨
      (run s (.input frame frameSize)).dns.state ≠ .resolved ∧
        (run s (.input frame frameSize)).dns.state ≠ .notFound) :
      ¬ s.Accepts (.input frame frameSize) := by
    rintro ⟨-, -, hresult⟩
    rcases h with h | ⟨h, h'⟩
    · rw [h] at hresult
      rcases hresult with hresult | hresult <;> cases hresult
    · exact hresult.elim h h'
  have effect := netInput_effect s frame frameSize
  change s.FrameEffect frame (run s (.input frame frameSize)) at effect
  cases effect with
  | same same =>
    refine .quiet same.quiet fun haccepts => ?_
    exact other (.inl (same.dns_eq ▸ haccepts.2.1)) haccepts
  | cut ports cuts =>
    refine .quiet cuts.quiet fun haccepts => ?_
    have hpending := haccepts.2.1
    rcases cuts.dns with hd | hd
    · exact other (.inl (hd ▸ hpending)) haccepts
    · refine other (.inr ?_) haccepts
      rw [hd, NetDnsClient.cutOff, if_pos hpending]
      simp
  | fails exchange fails ipv4 =>
    have hstate := fails.state
    refine .quiet (.of_not_pending (.of_eq fails.cache ipv4) ?_) (other (.inr ?_))
    · rcases hstate with h | h <;> rw [h] <;> decide
    · rcases hstate with h | h <;> rw [h] <;> decide
  | answers exchange answers ipv4 =>
    exact .answers rfl ⟨⟨frame, frameSize, rfl⟩, exchange.2.pending, answers.state⟩ answers ipv4

/-- Every call is quiet, begins a query, or answers one. -/
theorem resolverStep_run (call : NetCall) : s.ResolverStep call := by
  have same (hinput : ∀ frame frameSize, call ≠ .input frame frameSize)
      (h : s.SameResolver (call.run s)) : s.ResolverStep call :=
    .quiet h.quiet (not_accepts hinput)
  cases call with
  | input frame frameSize => exact resolverStep_input s frame frameSize
  | configureIpv4 config => exact .quiet (quiet_netConfigureIpv4 s config) (not_accepts nofun)
  | clearIpv4 => exact .quiet (cutsOff_netClearIpv4 s).quiet (not_accepts nofun)
  | tick nowMs => exact .quiet (quiet_netTick s nowMs) (not_accepts nofun)
  | dhcpStart id => exact .quiet (cutsOff_netDhcpStart s id).quiet (not_accepts nofun)
  | dhcpStop => exact same nofun ⟨rfl, rfl, rfl⟩
  | ipv4Send => exact same nofun (sameResolver_of_control (control_netIpv4Send s _ _ _ _))
  | udpSend => exact same nofun (sameResolver_of_control (control_netUdpSend s _ _ _ _ _))
  | icmpEchoRequest =>
    exact same nofun (sameResolver_of_control (control_netIcmpEchoRequest s _ _ _ _ _))
  | arpRequest => exact same nofun (sameResolver_of_control (control_netArpRequest s _ _))
  | udpBind port handler =>
    obtain ⟨bindings, hc⟩ := control_netUdpBind s port handler
    exact same nofun ⟨dns_of_control hc, dnsCache_of_control hc, ipv4_of_control hc⟩
  | udpUnbind => exact same nofun ⟨rfl, rfl, rfl⟩
  | setTcpHandler => exact same nofun ⟨rfl, rfl, rfl⟩
  | icmpClearEchoReply => exact same nofun ⟨rfl, rfl, rfl⟩
  | dnsQuery name id =>
    cases netDnsQuery_effect s name id with
    | refused _ quiet => exact .quiet quiet (not_accepts nofun)
    | asks asks => exact .asks asks (not_accepts nofun)
    | cached i name _ answers => exact .quiet answers.quiet (not_accepts nofun)
  | dnsCancel => exact .quiet (quiet_netDnsCancel s) (not_accepts nofun)
  | dnsClearResult =>
    exact .quiet (.of_not_pending (.of_eq (withDns_dnsCache s _) (withDns_ipv4 s _)) nofun)
      (not_accepts nofun)
  | dnsCacheClear => exact .quiet (CutsOff.quiet ⟨.inl rfl, rfl⟩) (not_accepts nofun)

variable {s}

/-! ### Runs -/

theorem clockFrom_append {first second : List NetCall}
    (h : ClockFrom s.currentTimeMs (first ++ second)) :
    ClockFrom s.currentTimeMs first ∧
      ClockFrom (s.after first).currentTimeMs second := by
  induction first generalizing s with
  | nil => exact ⟨trivial, h⟩
  | cons call first ih =>
    obtain ⟨hnow, h⟩ := h
    rw [← run_currentTimeMs] at h
    obtain ⟨hfirst, hsecond⟩ := ih h
    rw [run_currentTimeMs] at hfirst
    exact ⟨⟨hnow, hfirst⟩, hsecond⟩

variable {calls : List NetCall}

theorem currentTimeMs_le_after (h : ClockFrom s.currentTimeMs calls) :
    s.currentTimeMs ≤ (s.after calls).currentTimeMs :=
  after_invariant (fun _ => True) (fun s₁ call hle _ hnow => UInt64.le_trans hle (by
      rw [run_currentTimeMs]
      exact hnow)) (UInt64.le_refl s.currentTimeMs) (fun _ _ => trivial) h

/-- Since a response for a name was accepted, no other one was, and the configuration of the
interface has not changed. -/
def Calm (name : CString) : NetStack → List NetCall → Prop
  | _, [] => True
  | s, call :: calls =>
    ¬ (s.Accepts call ∧ dnsFold s.dns.name = dnsFold name) ∧ (call.run s).ipv4 = s.ipv4 ∧
      Calm name (call.run s) calls

/-- The run may be continued by a call that is calm as well. -/
theorem Calm.concat {name : CString} {call : NetCall} (h : Calm name s calls)
    (hother : ¬ ((s.after calls).Accepts call ∧ dnsFold (s.after calls).dns.name = dnsFold name))
    (hipv4 : (call.run (s.after calls)).ipv4 = (s.after calls).ipv4) :
    Calm name s (calls ++ [call]) := by
  induction calls generalizing s with
  | nil => exact ⟨hother, hipv4, trivial⟩
  | cons first calls ih => exact ⟨h.1, h.2.1, ih h.2.2 hother hipv4⟩

/-- The response that an entry goes back to: the stack `start` came to it by the calls `before`, and
it was followed by the calls `after`. -/
structure Origin (start : NetStack) (entry : NetDnsCacheEntry) (before : List NetCall)
    (frame : Memory) (frameSize : ℕ) (after : List NetCall) : Prop where
  accepts : (start.after before).Accepts (.input frame frameSize)
  answers : (start.after before).Answers ((start.after before).netInput frame frameSize).2
    (datagramData frame) (datagramDataSize frame)
  entry_eq : entry = { answerEntry (start.after before).currentTimeMs
    ((start.after before).netInput frame frameSize).2.dns with lastUsedMs := entry.lastUsedMs }
  address : entry.address = ((start.after before).netInput frame frameSize).2.dns.resultAddress
  ipv4 : ((start.after before).netInput frame frameSize).2.ipv4 = (start.after before).ipv4
  calm : Calm entry.name ((start.after before).netInput frame frameSize).2 after

variable {start : NetStack}

/-- An entry that fades keeps its origin. -/
theorem Origin.concat {entry entry' : NetDnsCacheEntry} {before after}
    {frame : Memory} {frameSize : ℕ} {call : NetCall}
    (h : start.Origin entry before frame frameSize after)
    (hs : s = start.after (before ++ .input frame frameSize :: after))
    (hentry : entry' = { entry with lastUsedMs := entry'.lastUsedMs })
    (hother : ¬ (s.Accepts call ∧ dnsFold s.dns.name = dnsFold entry.name))
    (hipv4 : (call.run s).ipv4 = s.ipv4) :
    start.Origin entry' before frame frameSize (after ++ [call]) := by
  have hname : entry'.name = entry.name := by rw [hentry]
  have haddress : entry'.address = entry.address := by rw [hentry]
  rw [after_append, after_cons] at hs
  refine ⟨h.accepts, h.answers, ?_, haddress.trans h.address, h.ipv4, ?_⟩
  · rw [hentry, h.entry_eq]
  · rw [hname]
    subst hs
    exact h.calm.concat hother hipv4

/-- The invariant of the cache over a run. -/
structure CacheInvariant (start : NetStack) (calls : List NetCall) (s : NetStack) : Prop where
  unique : CacheUnique s.dnsCache
  free : s.dns.state = .pending → s.dns.resultAddress = 0 ∧
    ∀ i, (s.dnsCache i).valid → dnsFold (s.dnsCache i).name ≠ dnsFold s.dns.name
  origin : ∀ i, (s.dnsCache i).valid → ∃ before frame frameSize after,
    calls = before ++ .input frame frameSize :: after ∧
      start.Origin (s.dnsCache i) before frame frameSize after

/-- The entries that a call leaves in use had their origin before it. -/
theorem CacheInvariant.fades {call : NetCall}
    (h : start.CacheInvariant calls s) (hs : s = start.after calls) (hfades : s.Fades (call.run s))
    (hother : ¬ s.Accepts call) (i : Fin 8) (hi : ((call.run s).dnsCache i).valid) :
    ∃ before frame frameSize after,
      calls ++ [call] = before ++ .input frame frameSize :: after ∧
        start.Origin ((call.run s).dnsCache i) before frame frameSize after := by
  obtain ⟨before, frame, frameSize, after, rfl, horigin⟩ := h.origin i (hfades.valid hi)
  refine ⟨before, frame, frameSize, after ++ [call], by simp, ?_⟩
  exact horigin.concat hs (hfades.kept i hi) (fun h => hother h.1) (hfades.ipv4 i hi)

/-- The entry that is written has the response as its origin; no other entry has its name. -/
theorem CacheInvariant.answers {frame : Memory}
    {frameSize : ℕ} (h : start.CacheInvariant calls s) (hs : s = start.after calls)
    (accepts : s.Accepts (.input frame frameSize))
    (answers : s.Answers (s.netInput frame frameSize).2 (datagramData frame)
      (datagramDataSize frame))
    (hipv4 : (s.netInput frame frameSize).2.ipv4 = s.ipv4) :
    start.CacheInvariant (calls ++ [.input frame frameSize]) (s.netInput frame frameSize).2 := by
  obtain ⟨written, hstores⟩ := answers.stores
  obtain ⟨haddress, hfree⟩ := h.free accepts.2.1
  refine ⟨hstores.unique h.unique, fun hpending => ?_, fun i hi => ?_⟩
  · rcases answers.state with hstate | hstate <;> rw [hstate] at hpending <;> cases hpending
  by_cases hw : written = some i
  · -- the new entry
    refine ⟨calls, frame, frameSize, [], rfl, ?_⟩
    rw [hstores.new i hw]
    subst hs
    refine ⟨accepts, answers, rfl, ?_, hipv4, trivial⟩
    simp only [answerEntry, dnsCacheEntry, decide_eq_true_eq]
    split
    · rename_i hnegative
      rw [(answers.negative_ttl hnegative).2, haddress]
    · rfl
  · have hold := hstores.old i hw hi
    rw [hold] at hi ⊢
    obtain ⟨before, frame', frameSize', after, rfl, horigin⟩ := h.origin i hi
    refine ⟨before, frame', frameSize', after ++ [.input frame frameSize], by simp, ?_⟩
    exact horigin.concat hs rfl (fun hname => hfree i hi hname.2.symm) hipv4

/-- Every call keeps the invariant. -/
theorem CacheInvariant.call
    (h : start.CacheInvariant calls s) (hs : s = start.after calls) (call : NetCall) :
    start.CacheInvariant (calls ++ [call]) (call.run s) := by
  cases resolverStep_run s call with
  | quiet quiet other =>
    refine ⟨quiet.fades.unique h.unique, fun hpending => ?_, h.fades hs quiet.fades other⟩
    obtain ⟨hstate, hname, haddress⟩ := quiet.pending hpending
    obtain ⟨hzero, hfree⟩ := h.free hstate
    refine ⟨haddress.trans hzero, fun i hi => ?_⟩
    rw [quiet.fades.name hi, hname]
    exact hfree i (quiet.fades.valid hi)
  | asks asks other =>
    exact ⟨asks.fades.unique h.unique, fun _ => ⟨asks.resultAddress, asks.free⟩,
      h.fades hs asks.fades other⟩
  | answers call_eq accepts answers ipv4 =>
    subst call_eq
    exact h.answers hs accepts answers ipv4

/-- The invariant holds after every run from `net_init`. -/
theorem cacheInvariant_after {answers : ℕ → Bool} {mac : Mac} {nowMs : UInt64}
    (hinit : netInit answers mac nowMs = some start) (calls : List NetCall) :
    start.CacheInvariant calls (start.after calls) := by
  induction calls using List.reverseRecOn with
  | nil =>
    unfold netInit at hinit
    split at hinit
    · cases hinit
      refine ⟨fun i _ hi => ?_, nofun, fun i hi => ?_⟩ <;> cases hi
    · cases hinit
  | append_singleton calls call ih =>
    rw [after_append]
    exact ih.call rfl call

theorem saturatingAddU64_toNat_le (value addition : UInt64) :
    (saturatingAddU64 value addition).toNat ≤ value.toNat + addition.toNat := by
  unfold saturatingAddU64
  split
  · rename_i h
    have hsub : (uint64Max - value).toNat = uint64Max.toNat - value.toNat :=
      UInt64.toNat_sub_of_le _ _ (UInt64.le_iff_toNat_le.2 (Nat.le_of_lt_succ value.toNat_lt))
    have := UInt64.lt_iff_toNat_lt.1 h
    omega
  · rw [UInt64.toNat_add]
    exact Nat.mod_le _ _

section Origin

variable {start : NetStack} {entry : NetDnsCacheEntry} {before after : List NetCall}
  {frame : Memory} {frameSize : ℕ}

section

variable (h : start.Origin entry before frame frameSize after)

include h

/-- An entry is for the name that was asked for. -/
theorem Origin.name_eq : entry.name = (start.after before).dns.name := by
  rw [h.entry_eq]
  exact h.answers.name

theorem Origin.code_eq :
    entry.responseCode = ((start.after before).netInput frame frameSize).2.dns.responseCode := by
  rw [h.entry_eq]
  rfl

theorem Origin.negative_iff : entry.negative = true ↔
      ((start.after before).netInput frame frameSize).2.dns.state = .notFound := by
  rw [h.entry_eq]
  exact decide_eq_true_iff

/-- An entry gives the state that its response led to. -/
theorem Origin.state_eq : (if entry.negative then .notFound else .resolved) =
      ((start.after before).netInput frame frameSize).2.dns.state := by
  split
  · rename_i hnegative
    exact (h.negative_iff.1 hnegative).symm
  · rename_i hpositive
    exact (h.answers.state.resolve_right fun h' => hpositive (h.negative_iff.2 h')).symm

/-- An entry is used until the time to live of its response is over. -/
theorem Origin.expires : entry.expiresMs.toNat ≤ (start.after before).currentTimeMs.toNat +
      1000 * ((start.after before).netInput frame frameSize).2.dns.ttlSeconds.toNat := by
  have hexpires : entry.expiresMs = saturatingAddU64 (start.after before).currentTimeMs
      (secondsToMs ((start.after before).netInput frame frameSize).2.dns.ttlSeconds) := by
    rw [h.entry_eq, answerEntry, dnsCacheEntry]
  rw [hexpires, ← secondsToMs_toNat]
  exact saturatingAddU64_toNat_le _ _

end

end Origin

theorem netInit_currentTimeMs {answers : ℕ → Bool} {mac : Mac} {nowMs : UInt64}
    (h : netInit answers mac nowMs = some start) : start.currentTimeMs = nowMs := by
  unfold netInit at h
  split at h
  · cases h
    rfl
  · cases h

/-- **The cache is sound over time.**  In every run in which the clock does not go back: an answer
from the cache is the answer of the latest accepted response for the name asked for, less than its
time to live after it was accepted and with no change of the configuration in between; no two
entries in use have the same name; and every entry goes back to a response with the code 0 or 3,
those without an address for at most 60 seconds. -/
theorem dnsCache_sound (answers : ℕ → Bool) (mac : Mac) (nowMs : UInt64) (start s : NetStack)
    (calls : List NetCall) (hinit : netInit answers mac nowMs = some start)
    (hclock : NetCall.ClockFrom nowMs calls) (hs : s = start.after calls) :
    (∀ name id, (s.netDnsQuery name id).1 = true →
      (s.netDnsQuery name id).2.dns.state ≠ .pending →
      ∃ valid before frame frameSize after s₀ s₁,
        dnsValidateAndCopyName name = some valid ∧ (s.netDnsQuery name id).2.dns.name = valid ∧
        calls = before ++ .input frame frameSize :: after ∧ s₀ = start.after before ∧
        s₁ = (s₀.netInput frame frameSize).2 ∧ s₀.dns.state = .pending ∧
        dnsFold s₀.dns.name = dnsFold valid ∧
        (s₁.dns.state = .resolved ∨ s₁.dns.state = .notFound) ∧
        (s.netDnsQuery name id).2.dns.state = s₁.dns.state ∧
        (s.netDnsQuery name id).2.dns.resultAddress = s₁.dns.resultAddress ∧
        (s.netDnsQuery name id).2.dns.responseCode = s₁.dns.responseCode ∧
        s₀.currentTimeMs ≤ s.currentTimeMs ∧
        s.currentTimeMs.toNat < s₀.currentTimeMs.toNat + 1000 * s₁.dns.ttlSeconds.toNat ∧
        s₁.ipv4 = s₀.ipv4 ∧ Calm s₀.dns.name s₁ after) ∧
    CacheUnique s.dnsCache ∧
    (∀ i, (s.dnsCache i).valid → ∃ before frame frameSize after,
      calls = before ++ .input frame frameSize :: after ∧
      start.Origin (s.dnsCache i) before frame frameSize after ∧
      (dnsResponseCode (datagramData frame) = 0 ∨ dnsResponseCode (datagramData frame) = 3) ∧
      ((s.dnsCache i).negative →
        (s.dnsCache i).expiresMs.toNat ≤ (start.after before).currentTimeMs.toNat + 60000)) := by
  -- each entry remembers the response it was stored for
  have hinv : start.CacheInvariant calls s := hs ▸ cacheInvariant_after hinit calls
  refine ⟨fun name id hanswered hstate => ?_, hinv.unique, fun i hi => ?_⟩
  · cases netDnsQuery_effect s name id with
    | refused false_eq => exact absurd (hanswered.symm.trans false_eq) nofun
    | asks asks => exact absurd asks.pending hstate
    | cached i valid hvalid cached =>
      obtain ⟨before, frame, frameSize, after, hcalls, origin⟩ := hinv.origin i cached.valid
      have hname := origin.name_eq
      have hbefore : (start.after before).currentTimeMs ≤ s.currentTimeMs := by
        rw [← netInit_currentTimeMs hinit, hcalls] at hclock
        rw [hs, hcalls, after_append]
        exact currentTimeMs_le_after (clockFrom_append hclock).2
      refine ⟨valid, before, frame, frameSize, after, start.after before, _, hvalid,
        cached.asked_eq,
        hcalls, rfl, rfl, origin.accepts.2.1, ?_, origin.answers.state, ?_, ?_, ?_, hbefore, ?_,
        origin.ipv4, ?_⟩
      · rw [← hname, cached.name]
      · rw [cached.state, origin.state_eq]
      · rw [cached.address, origin.address]
      · rw [cached.code, origin.code_eq]
      · exact Nat.lt_of_lt_of_le (UInt64.lt_iff_toNat_lt.1 cached.fresh) origin.expires
      · rw [← hname]
        exact origin.calm
  · obtain ⟨before, frame, frameSize, after, hcalls, origin⟩ := hinv.origin i hi
    refine ⟨before, frame, frameSize, after, hcalls, origin, ?_, fun hnegative => ?_⟩
    · rw [← origin.answers.code]
      exact origin.answers.code_eq
    · have httl := (origin.answers.negative_ttl (origin.negative_iff.1 hnegative)).1
      have hsixty : _ ≤ 60 := UInt32.le_iff_toNat_le.1 httl
      have hexpires := origin.expires
      omega

/-- The response of `10.0.0.1` to the query with id 1: the name `a` has the address `10.0.0.3` for a
minute. -/
def sampleResponse : List UInt8 :=
  [2, 0, 0, 0, 0, 2] ++ [2, 0, 0, 0, 0, 1] ++ writeU16 ethertypeIpv4 ++
    ([0x45, 0] ++ writeU16 63 ++ writeU32 0 ++ [64, netIpv4ProtocolUdp] ++ writeU16 0x66AC ++
      writeU32 0x0A000001 ++ writeU32 0x0A000002) ++
    (writeU16 dnsServerPort ++ writeU16 49153 ++ writeU16 43 ++ writeU16 0) ++
    (writeU16 1 ++ writeU16 0x8180 ++ writeU16 1 ++ writeU16 1 ++ writeU16 0 ++ writeU16 0) ++
    ([1, 0x61, 0] ++ writeU16 dnsTypeA ++ writeU16 dnsClassIn) ++
    ([0xC0, 12] ++ writeU16 dnsTypeA ++ writeU16 dnsClassIn ++ writeU32 60 ++ writeU16 4 ++
      writeU32 0x0A000003)

/-- The name `a`. -/
def sampleName : CString := CString.ofBytes [0x61]

/-- A query, its response, and a while. -/
def resolvedCalls : List NetCall :=
  [.configureIpv4 sampleConfig, .dnsQuery (some sampleName) 1, .input (byteAt sampleResponse) 77,
    .tick 5000]

/-- The stack behind these calls. -/
def resolvedStack : NetStack := (freshStack 0).after resolvedCalls

theorem dnsCache_sound_resolvedStack :
    (resolvedStack.netDnsQuery (some sampleName) 2).2.dns.resultAddress = 0x0A000003 ∧
    ∃ before frame frameSize after,
      resolvedCalls = before ++ .input frame frameSize :: after ∧
        dnsFold ((freshStack 0).after before).dns.name = dnsFold sampleName := by
  have hanswered : (resolvedStack.netDnsQuery (some sampleName) 2).1 = true := by decide +kernel
  have hstate : (resolvedStack.netDnsQuery (some sampleName) 2).2.dns.state ≠ .pending := by
    decide +kernel
  have h := dnsCache_sound (fun _ => true) sampleMac 0 (freshStack 0) resolvedStack resolvedCalls
    (netInit_freshStack 0) (by decide +kernel) rfl
  refine ⟨by decide +kernel, ?_⟩
  obtain ⟨valid, before, frame, frameSize, after, s₀, -, hvalid, -, hcalls, rfl, -, -, hname, -⟩ :=
    h.1 _ _ hanswered hstate
  have hsame : dnsValidateAndCopyName (some sampleName) = some sampleName := by decide +kernel
  cases hsame.symm.trans hvalid
  exact ⟨before, frame, frameSize, after, hcalls, hname⟩

end NetStack

end Nostalux.Net
