import Nostalux.Net.EchoReplies
import Nostalux.Net.Lease

/-!
# The ARP table over whole runs

A frame that the stack takes may tell the Ethernet address of its sender; nothing else makes an
entry.  Everything that happens to the table is one of three things: it learns what a frame tells,
the clock removes old entries, and the rest keeps the table or empties it together with the network
it belongs to.

* `keepsNeighbours_run`: every call of the stack is made of these;
* `arp_table_over_runs`: there is one entry for an address, it is what the last telling frame of the
  sender has told, it is fresh after a tick, and no entry survives a change of the network.
-/

namespace Nostalux.Net

open BigEndian Function List

namespace NetStack

variable {s s' s₁ s₂ s₃ : NetStack}

/-- The part of the configuration that the entries belong to. -/
def network (s : NetStack) : UInt32 × UInt32 × UInt32 :=
  (s.ipv4.address, s.ipv4.netmask, s.ipv4.gateway)

/-- The table is kept together with the network, or it is emptied. -/
inductive KeepsNeighbours (s s' : NetStack) : Prop
  | kept (arp : s'.arp = s.arp) (network : s'.network = s.network)
  | emptied (arp : ∀ i, (s'.arp i).valid = false)

theorem KeepsNeighbours.of_control (h : s'.control = s.control) : s.KeepsNeighbours s' :=
  .kept (arp_of_control h) (congrArg (fun ipv4 : NetIpv4Config =>
    (ipv4.address, ipv4.netmask, ipv4.gateway)) (ipv4_of_control h))

theorem KeepsNeighbours.trans (h : s₁.KeepsNeighbours s₂) (h' : s₂.KeepsNeighbours s₃) :
    s₁.KeepsNeighbours s₃ := by
  cases h' with
  | emptied arp => exact .emptied arp
  | kept arp' network' =>
    cases h with
    | kept arp network => exact .kept (arp'.trans arp) (network'.trans network)
    | emptied arp => exact .emptied fun i => by rw [arp', arp]

/-- A change outside of the table and the configuration. -/
theorem KeepsNeighbours.of_eq (harp : s'.arp = s.arp) (hipv4 : s'.ipv4 = s.ipv4) :
    s.KeepsNeighbours s' :=
  .kept harp (by rw [network, network, hipv4])

theorem SameButResolver.keepsNeighbours (h : s.SameButResolver s') : s.KeepsNeighbours s' :=
  .of_eq (arp_of_control h) h.ipv4_eq

/-! ### The configuration -/

variable (s)

theorem keepsNeighbours_netClearIpv4 : s.KeepsNeighbours s.netClearIpv4 :=
  .emptied fun i =>
    congrArg NetArpEntry.valid (congrFun (arp_of_control (control_netClearIpv4 s)) i)

theorem keepsNeighbours_netConfigureIpv4 (config : NetIpv4Config) :
    s.KeepsNeighbours (s.netConfigureIpv4 config) := by
  have hclear (s' : NetStack) (changed : Bool) :
      s'.KeepsNeighbours (if changed then s'.netDnsCacheClear else s') := by
    cases changed with
    | true => exact (sameButResolver_withDnsCache s' _).keepsNeighbours
    | false => exact .of_control rfl
  unfold netConfigureIpv4
  refine .trans ?_ (hclear _ _)
  by_cases hchanged : s.networkChanged config = true
  · rw [if_pos hchanged]
    exact .emptied fun i => rfl
  · rw [if_neg hchanged]
    simp only [networkChanged, decide_eq_true_eq, not_or, not_not] at hchanged
    obtain ⟨haddress, hnetmask, hgateway⟩ := hchanged
    refine .kept rfl ?_
    rw [network, network, withIpv4_ipv4, haddress, hnetmask, hgateway]

theorem keepsNeighbours_netDhcpStart (transactionId : UInt32) :
    s.KeepsNeighbours (s.netDhcpStart transactionId) := by
  obtain ⟨id, attempts, next, hc⟩ := control_netDhcpStart s transactionId
  refine (keepsNeighbours_netClearIpv4 s).trans ?_
  exact .of_eq (arp_of_control hc) (ipv4_of_control hc)

theorem keepsNeighbours_withDhcp (dhcp : NetDhcpClient) : s.KeepsNeighbours (s.withDhcp dhcp) :=
  .of_eq (arp_of_control (control_withDhcp s dhcp)) (withDhcp_ipv4 s dhcp)

section

variable (options : DhcpOptions) (offeredIp serverIp : UInt32)

theorem keepsNeighbours_dhcpBound : s.KeepsNeighbours (s.dhcpBound options offeredIp serverIp) := by
  unfold dhcpBound
  have hstore : s.KeepsNeighbours (s.dhcpStoreLease serverIp (s.dhcpAckLease options)) :=
    keepsNeighbours_withDhcp s _
  refine hstore.trans ?_
  exact (keepsNeighbours_netConfigureIpv4 _ _).trans (keepsNeighbours_withDhcp _ _)

theorem keepsNeighbours_dhcpReceiveOffer :
    s.KeepsNeighbours (s.dhcpReceiveOffer options offeredIp serverIp) := by
  obtain ⟨dhcp, hc, -⟩ := control_dhcpReceiveOffer s options offeredIp serverIp
  exact .of_eq (arp_of_control hc) (ipv4_of_control hc)

end

theorem keepsNeighbours_dhcpReceive (sourceIp : UInt32) (packet : Memory)
    (packetSize : ℕ) : s.KeepsNeighbours (s.dhcpReceive sourceIp packet packetSize).2 := by
  obtain ⟨ok, s', hresult⟩ : ∃ ok s', s.dhcpReceive sourceIp packet packetSize = (ok, s') :=
    ⟨_, _, rfl⟩
  rw [hresult]
  change s.KeepsNeighbours s'
  cases dhcpReceive_outcome hresult with
  | rejected => exact .of_control rfl
  | offer reply state => exact keepsNeighbours_dhcpReceiveOffer s _ _ _
  | nak takes => exact keepsNeighbours_netDhcpStart s _
  | ack takes eq =>
    cases dhcpReceiveAck_outcome eq with
    | noAddress => exact .of_control rfl
    | noLease usable zero => exact keepsNeighbours_withDhcp s _
    | bound usable => exact keepsNeighbours_dhcpBound s _ _ _

/-! ### Frames -/

/-- The stack with the sender that a frame tells. -/
def learnTold (s : NetStack) (frame : Memory) (frameSize : ℕ) : NetStack :=
  match s.toldSender frame frameSize with
  | some (ip, mac) => s.arpLearn ip mac
  | none => s

theorem keepsNeighbours_receivePayload (protocol : UInt8)
    (sourceIp destinationIp : UInt32) (payload : Memory) (payloadSize : ℕ) :
    s.KeepsNeighbours
      (s.receivePayload protocol sourceIp destinationIp payload payloadSize).2 := by
  unfold receivePayload
  split
  · exact .of_control (control_receiveIcmp s _ _ _ _)
  split
  · rcases receiveUdp_cases s sourceIp destinationIp payload payloadSize with
      h | ⟨-, -, s₁, h₁, h⟩ | ⟨-, -, s₁, h₁, h⟩
    · exact .of_control h
    · rw [h]
      exact (KeepsNeighbours.of_control h₁).trans (keepsNeighbours_dhcpReceive s₁ _ _ _)
    · rw [h]
      exact (KeepsNeighbours.of_control h₁).trans
        (resolves_dnsReceive s₁ _ _ _ _ _).same.keepsNeighbours
  split
  · exact .of_control (control_deliverTcp s _ _ _)
  · exact .of_control rfl

/-- A frame makes the stack learn what it tells. -/
theorem keepsNeighbours_netInput (frame : Memory) (frameSize : ℕ) :
    (s.learnTold frame frameSize).KeepsNeighbours (s.netInput frame frameSize).2 := by
  have h := netInput_outcome s frame frameSize
  generalize (s.netInput frame frameSize).2 = s' at h
  cases h with
  | dropped arp ipv4 update =>
    rw [learnTold, toldSender_of_not_takes arp ipv4]
    exact .of_control (control_count s update)
  | arp arp ipv4 before after =>
    have htells : (s.count before).arpTells (macAt (frame.shift 6)) (frame.shift 14)
      (frameSize - netEthernetHeaderSize) := (takesArp_iff.1 arp).2.2
    rw [learnTold, toldSender, if_pos arp]
    refine .of_control ?_
    rw [control_count, control_receiveArp_of_tells htells, arpLearn_count, control_count]
  | ipv4 arp ipv4 before after =>
    refine .trans ?_ (.of_control (control_count _ after))
    rw [acceptIpv4]
    refine .trans (.of_control ?_) (keepsNeighbours_receivePayload _ _ _ _ _ _)
    rw [control_count, ← frameSourceIp, control_learnSender_count, control_learnSender, learnTold,
      toldSender, if_neg arp]
    simp only [ipv4, true_and]
    by_cases hlearn : ipv4IsUsableUnicast (frameSourceIp frame) ∧
      s.ipv4IsOnLink (frameSourceIp frame)
    · rw [if_pos hlearn, if_pos hlearn]
    · rw [if_neg hlearn, if_neg hlearn]

/-! ### The clock -/

theorem keepsNeighbours_tickDhcp : s.KeepsNeighbours s.tickDhcp := by
  rcases tickDhcp_cases s with ⟨-, -, h⟩ | ⟨-, state, attempts, next, hc, -⟩
  · rw [h]
    exact keepsNeighbours_netDhcpStart s _
  · exact .of_eq (arp_of_control hc) (ipv4_of_control hc)

/-- The table and the network when the clock has removed the old entries. -/
theorem keepsNeighbours_netTick (nowMs : UInt64) :
    (s.withTime nowMs).arpExpire.KeepsNeighbours (s.netTick nowMs) := by
  have hcache := sameButResolver_dnsCacheExpire (s.withTime nowMs)
  have hexpire : (s.withTime nowMs).arpExpire.KeepsNeighbours
      (s.withTime nowMs).dnsCacheExpire.arpExpire := by
    refine .of_eq ?_ ?_
    · have harp : (s.withTime nowMs).dnsCacheExpire.arp = (s.withTime nowMs).arp :=
        arp_of_control hcache
      rw [arpExpire, arpExpire, withArp_arp, withArp_arp, harp, hcache.currentTimeMs_eq]
    · exact hcache.ipv4_eq
  unfold netTick
  generalize (s.withTime nowMs).dnsCacheExpire.arpExpire = s₁ at hexpire
  refine hexpire.trans (.trans (.of_control (control_tickPendingArp s₁)) ?_)
  refine (keepsNeighbours_tickDhcp _).trans ?_
  exact (sameButResolver_tickDns _).keepsNeighbours.trans (.of_control (control_tickEcho _))

/-- A call that neither receives a frame nor tells the time. -/
theorem keepsNeighbours_run (call : NetCall)
    (hinput : ∀ frame frameSize, call ≠ .input frame frameSize)
    (htick : ∀ nowMs, call ≠ .tick nowMs) : s.KeepsNeighbours (call.run s) := by
  have hother (h : call.LeavesLease) : s.KeepsNeighbours (call.run s) :=
    have same := sameClient_run s call h hinput htick
    .of_eq same.arp_eq same.ipv4_eq
  cases call with
  | configureIpv4 config => exact keepsNeighbours_netConfigureIpv4 s config
  | clearIpv4 => exact keepsNeighbours_netClearIpv4 s
  | dhcpStart transactionId => exact keepsNeighbours_netDhcpStart s transactionId
  | dhcpStop => exact keepsNeighbours_withDhcp s default
  | _ => exact hother trivial

variable {s}

/-! ### What was heard -/

/-- What a call tells, as the entry it makes. -/
def told (s : NetStack) : NetCall → Option NetArpEntry
  | .input frame frameSize => (s.toldSender frame frameSize).map fun sender =>
    ⟨true, sender.1, sender.2, s.currentTimeMs⟩
  | _ => none

/-- What the calls of a run tell, the latest first. -/
def heard : NetStack → List NetCall → List NetArpEntry
  | _, [] => []
  | s, call :: calls => heard (call.run s) calls ++ (s.told call).toList

/-- The latest of what was heard of an address. -/
def lastHeard (s : NetStack) (calls : List NetCall) (ip : UInt32) : Option NetArpEntry :=
  (s.heard calls).find? (·.ip == ip)

theorem heard_append (s : NetStack) (first second : List NetCall) :
    s.heard (first ++ second) = (s.after first).heard second ++ s.heard first := by
  induction first generalizing s with
  | nil => simp [heard]
  | cons call calls ih => simp [heard, ih]

theorem toldSender_valid {frame : Memory} {frameSize : ℕ} {ip : UInt32} {mac : Mac}
    (h : s.toldSender frame frameSize = some (ip, mac)) :
    ipv4IsUsableUnicast ip = true ∧ macIsValidSource mac = true := by
  rw [toldSender] at h
  split at h
  · rename_i harp
    obtain ⟨-, -, hvalid, -⟩ := takesArp_iff.1 harp
    obtain ⟨-, -, -, -, -, -, hmac, hip⟩ := of_decide_eq_true hvalid
    cases h
    exact ⟨hip, hmac⟩
  split at h
  · rename_i hipv4
    obtain ⟨-, -, -, hmac⟩ := takesFrame_iff.1 (takesIpv4_iff.1 hipv4.1).1
    cases h
    exact ⟨hipv4.2.1, hmac⟩
  · cases h

/-! ### The table -/

/-- The table holds the latest of what was heard, once for an address. -/
structure Neighbours (heard : List NetArpEntry) (s : NetStack) : Prop where
  unique : ∀ i j, (s.arp i).valid = true → (s.arp j).valid = true →
    (s.arp i).ip = (s.arp j).ip → i = j
  usable : ∀ i, (s.arp i).valid = true → ipv4IsUsableUnicast (s.arp i).ip = true
  source : ∀ i, (s.arp i).valid = true → macIsValidSource (s.arp i).mac = true
  latest : ∀ i, (s.arp i).valid = true →
    heard.find? (·.ip == (s.arp i).ip) = some (s.arp i)

variable {heard : List NetArpEntry}

/-- Entries may be removed. -/
theorem Neighbours.of_subset (h : Neighbours heard s)
    (hsub : ∀ i, (s'.arp i).valid = true → s'.arp i = s.arp i) : Neighbours heard s' where
  unique i j hi hj hip := by
    have heq := hsub i hi
    have heq' := hsub j hj
    rw [heq] at hi hip
    rw [heq'] at hj hip
    exact h.unique i j hi hj hip
  usable i hi := by
    have heq := hsub i hi
    rw [heq] at hi ⊢
    exact h.usable i hi
  source i hi := by
    have heq := hsub i hi
    rw [heq] at hi ⊢
    exact h.source i hi
  latest i hi := by
    have heq := hsub i hi
    rw [heq] at hi ⊢
    exact h.latest i hi

theorem Neighbours.keeps (h : Neighbours heard s)
    (hkeeps : s.KeepsNeighbours s') : Neighbours heard s' := by
  cases hkeeps with
  | kept arp network => exact h.of_subset fun i _ => congrFun arp i
  | emptied arp => exact h.of_subset fun i hi => absurd hi (by simp [arp i])

theorem arpExpire_valid {i : Fin 8} (h : (s.arpExpire.arp i).valid = true) :
    s.arpExpire.arp i = s.arp i ∧ (s.arp i).refreshedMs ≤ s.currentTimeMs ∧
      s.currentTimeMs - (s.arp i).refreshedMs < arpEntryLifetimeMs := by
  rw [arpExpire, withArp_arp] at h ⊢
  split at h
  · cases h
  · rename_i hfresh
    simp only [if_neg hfresh, true_and]
    simpa [h] using hfresh

/-- No other entry has the address that is learned. -/
theorem Neighbours.ip_ne (h : Neighbours heard s) {ip : UInt32}
    {selected i : Fin 8} (hne : i ≠ (s.arpFind ip).getD selected) (hi : (s.arp i).valid = true) :
    (s.arp i).ip ≠ ip := by
  intro hip
  cases hfind : s.arpFind ip with
  | none =>
    have hnone := find?_eq_none.1 hfind i (mem_finRange i)
    simp [hi, hip] at hnone
  | some j =>
    have hsome := find?_some hfind
    simp only [Bool.and_eq_true, beq_iff_eq] at hsome
    rw [hfind, Option.getD_some] at hne
    exact hne (h.unique i j hi hsome.1 (hip.trans hsome.2.symm))

theorem Neighbours.learn (h : Neighbours heard s) {ip : UInt32} {mac : Mac}
    (hip : ipv4IsUsableUnicast ip = true) (hmac : macIsValidSource mac = true) :
    Neighbours (⟨true, ip, mac, s.currentTimeMs⟩ :: heard) (s.arpLearn ip mac) := by
  rw [arpLearn, if_neg (by simp [hip, hmac])]
  generalize hk : (s.arpFind ip).getD _ = k
  have hother {i : Fin 8} (hne : i ≠ k) (hi : (s.arp i).valid = true) : (s.arp i).ip ≠ ip :=
    h.ip_ne (by rw [hk]; exact hne) hi
  refine ⟨?_, ?_, ?_, ?_⟩
  · intro i j
    rw [withArp_arp]
    by_cases hi : i = k <;> by_cases hj : j = k <;>
      simp only [hi, hj, update_self, ne_eq, not_false_eq_true, update_of_ne]
    · exact fun _ _ _ => trivial
    · exact fun _ hvalid hsame => absurd hsame.symm (hother hj hvalid)
    · exact fun hvalid _ hsame => absurd hsame (hother hi hvalid)
    · exact h.unique i j
  · intro i
    rw [withArp_arp]
    by_cases hi : i = k
    · rw [hi, update_self]
      exact fun _ => hip
    · rw [update_of_ne hi]
      exact h.usable i
  · intro i
    rw [withArp_arp]
    by_cases hi : i = k
    · rw [hi, update_self]
      exact fun _ => hmac
    · rw [update_of_ne hi]
      exact h.source i
  · intro i
    rw [withArp_arp]
    by_cases hi : i = k
    · rw [hi, update_self]
      exact fun _ => find?_cons_of_pos (by simp)
    · rw [update_of_ne hi]
      intro hvalid
      rw [find?_cons_of_neg (by simpa using (hother hi hvalid).symm), h.latest i hvalid]

/-! ### Runs -/

theorem Neighbours.call (h : Neighbours heard s) (call : NetCall) :
    Neighbours ((s.told call).toList ++ heard) (call.run s) := by
  by_cases hinput : ∃ frame frameSize, call = .input frame frameSize
  · obtain ⟨frame, frameSize, rfl⟩ := hinput
    have hkeeps := keepsNeighbours_netInput s frame frameSize
    rw [learnTold] at hkeeps
    rw [told]
    cases hsender : s.toldSender frame frameSize with
    | none =>
      rw [hsender] at hkeeps
      exact h.keeps hkeeps
    | some sender =>
      rw [hsender] at hkeeps
      obtain ⟨hip, hmac⟩ := toldSender_valid hsender
      exact (h.learn hip hmac).keeps hkeeps
  by_cases htick : ∃ nowMs, call = .tick nowMs
  · obtain ⟨nowMs, rfl⟩ := htick
    have hexpired : Neighbours heard (s.withTime nowMs).arpExpire :=
      h.of_subset fun i hi => (arpExpire_valid hi).1
    exact hexpired.keeps (keepsNeighbours_netTick s nowMs)
  · have htold : s.told call = none := by
      cases call with
      | input frame frameSize => exact absurd ⟨frame, frameSize, rfl⟩ hinput
      | _ => rfl
    rw [htold]
    exact h.keeps (keepsNeighbours_run s call (fun frame frameSize hcall => hinput ⟨_, _, hcall⟩)
      fun nowMs hcall => htick ⟨_, hcall⟩)

theorem neighbours_after {answers : ℕ → Bool} {mac : Mac} {nowMs : UInt64} {start : NetStack}
    (hinit : netInit answers mac nowMs = some start) (calls : List NetCall) :
    Neighbours (start.heard calls) (start.after calls) := by
  induction calls using reverseRecOn with
  | nil =>
    rw [netInit] at hinit
    split at hinit
    · cases hinit
      exact ⟨nofun, nofun, nofun, nofun⟩
    · cases hinit
  | append_singleton calls call ih =>
    rw [heard_append, after_append]
    simpa [heard] using ih.call call

variable (s)

theorem network_arpLearn (ip : UInt32) (mac : Mac) : (s.arpLearn ip mac).network = s.network := by
  rw [network, network, (sameButArp_arpLearn s ip mac).ipv4_eq]

/-- A call that changes the network leaves no entry. -/
theorem emptied_of_network_ne (call : NetCall) (h : (call.run s).network ≠ s.network)
    (i : Fin 8) : ((call.run s).arp i).valid = false := by
  have hfrom {s₁ : NetStack} (hkeeps : s₁.KeepsNeighbours (call.run s))
      (hnetwork : s₁.network = s.network) : ((call.run s).arp i).valid = false := by
    cases hkeeps with
    | kept arp network => exact absurd (network.trans hnetwork) h
    | emptied arp => exact arp i
  cases call with
  | input frame frameSize =>
    refine hfrom (keepsNeighbours_netInput s frame frameSize) ?_
    rw [learnTold]
    split
    · exact network_arpLearn s _ _
    · rfl
  | tick nowMs => exact hfrom (keepsNeighbours_netTick s nowMs) rfl
  | _ => exact hfrom (keepsNeighbours_run s _ nofun nofun) rfl

/-- An entry that is left after a tick was refreshed in the last two minutes. -/
theorem fresh_after_netTick (nowMs : UInt64) {i : Fin 8}
    (h : ((s.netTick nowMs).arp i).valid = true) :
    ((s.netTick nowMs).arp i).refreshedMs.toNat ≤ nowMs.toNat ∧
      nowMs.toNat < ((s.netTick nowMs).arp i).refreshedMs.toNat + 120000 := by
  cases keepsNeighbours_netTick s nowMs with
  | emptied arp => exact absurd h (by simp [arp i])
  | kept arp network =>
    rw [arp] at h ⊢
    obtain ⟨heq, hle, hfresh⟩ := arpExpire_valid h
    rw [heq]
    have hle' : ((s.withTime nowMs).arp i).refreshedMs ≤ nowMs := hle
    have hlt : nowMs - ((s.withTime nowMs).arp i).refreshedMs < arpEntryLifetimeMs := hfresh
    rw [UInt64.lt_iff_toNat_lt, UInt64.toNat_sub_of_le _ _ hle'] at hlt
    rw [UInt64.le_iff_toNat_le] at hle'
    have hlifetime : arpEntryLifetimeMs.toNat = 120000 := rfl
    omega

variable {s}

/-- The ARP table over every run: one entry for an address, with what the last telling frame of the
sender has told, fresh after a tick, and none left when the network changes. -/
theorem arp_table_over_runs (answers : ℕ → Bool) (mac : Mac) (nowMs : UInt64) (start : NetStack)
    (calls : List NetCall) (hinit : netInit answers mac nowMs = some start) :
    let s := start.after calls
    (∀ i j, (s.arp i).valid = true → (s.arp j).valid = true → (s.arp i).ip = (s.arp j).ip → i = j) ∧
    (∀ i, (s.arp i).valid = true → ipv4IsUsableUnicast (s.arp i).ip = true ∧
      macIsValidSource (s.arp i).mac = true ∧
      start.lastHeard calls (s.arp i).ip = some (s.arp i)) ∧
    (∀ nowMs i, ((s.netTick nowMs).arp i).valid = true →
      ((s.netTick nowMs).arp i).refreshedMs.toNat ≤ nowMs.toNat ∧
      nowMs.toNat < ((s.netTick nowMs).arp i).refreshedMs.toNat + 120000) ∧
    ∀ call : NetCall, (call.run s).network ≠ s.network →
      ∀ i, ((call.run s).arp i).valid = false := by
  have h := neighbours_after hinit calls
  refine ⟨h.unique, fun i hi => ⟨h.usable i hi, h.source i hi, h.latest i hi⟩, ?_, ?_⟩
  · exact fun nowMs i hi => fresh_after_netTick _ nowMs hi
  · exact fun call hcall i => emptied_of_network_ne _ call hcall i

/-- The Ethernet address of a host with an address of another network. -/
def neighbourMac : Mac := Buffer.ofFn (byteAt [2, 0, 0, 0, 0, 9])

/-- The Ethernet address of the router. -/
def routerMac : Mac := Buffer.ofFn (byteAt [2, 0, 0, 0, 0, 1])

/-- An ARP request of `192.168.0.9` for `10.0.0.2`. -/
def foreignArpRequest : List UInt8 :=
  ethernetFrame macBroadcast neighbourMac ethertypeArp
    (writeU16 1 ++ writeU16 ethertypeIpv4 ++ [6, 4] ++ writeU16 1 ++ neighbourMac.bytes 0 6 ++
      writeU32 0xC0A80009 ++ List.replicate 6 0 ++ writeU32 0x0A000002)

/-- An echo request of `192.168.0.9` that came through the router. -/
def forwardedRequest : List UInt8 :=
  ethernetFrame sampleMac routerMac ethertypeIpv4
    (ipv4Packet 1 0xC0A80009 0x0A000002 netIpv4ProtocolIcmp [8, 0, 0xF7, 0xFF, 0, 0, 0, 0])

/-- A stack that is set up and hears the request for its address. -/
def foreignCalls : List NetCall :=
  [.configureIpv4 sampleConfig, .input (byteAt foreignArpRequest) 42]

/-- The entry of the request is what was last heard. -/
theorem arp_table_over_runs_foreignCalls :
    (((freshStack 0).after foreignCalls).arp 0).valid = true ∧
    (freshStack 0).lastHeard foreignCalls (((freshStack 0).after foreignCalls).arp 0).ip =
      some (((freshStack 0).after foreignCalls).arp 0) :=
  have hvalid : (((freshStack 0).after foreignCalls).arp 0).valid = true := by decide +kernel
  ⟨hvalid, ((arp_table_over_runs _ _ 0 _ foreignCalls (netInit_freshStack 0)).2.1 0 hvalid).2.2⟩

/-- A packet of the same address that came through the router is accepted, and the entry stays. -/
theorem forwarded_packet_keeps_entry :
    let s := (freshStack 0).after foreignCalls
    (s.netInput (byteAt forwardedRequest) 42).1 = true ∧
    frameSourceIp (byteAt forwardedRequest) = 0xC0A80009 ∧
    macAt (Memory.shift (byteAt forwardedRequest) 6) = routerMac ∧
    (s.netInput (byteAt forwardedRequest) 42).2.netArpLookup 0xC0A80009 = some neighbourMac ∧
    neighbourMac ≠ routerMac := by
  decide +kernel

end NetStack

end Nostalux.Net
