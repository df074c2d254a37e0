import Nostalux.Net.Lease

/-!
# What an accepted ACK leaves behind

* `exists_prefix_of_netmask`: `ipv4_netmask_is_valid` accepts the masks of prefixes only;
* `dhcpAckRebind_ordered_iff`: the clamps of `dhcp_receive` put the three times in order, unless the
  renewal time is not below seven eighths of the lease and the rebind time is of no use;
* `accepted_ack_iff`: the configuration and the times after an ACK.
-/

namespace Nostalux.Net

open BigEndian NetStack

/-! ### Masks -/

/-- The ones of a number that ends in ones only. -/
theorem exists_pow_of_and_succ {n : ℕ} (h : n &&& (n + 1) = 0) : ∃ k, n + 1 = 2 ^ k := by
  induction n using Nat.strong_induction_on with
  | _ n ih =>
    have hhalf : n / 2 &&& (n + 1) / 2 = 0 := by rw [← Nat.and_div_two, h]
    rcases Nat.even_or_odd' n with ⟨k, rfl | rfl⟩
    · rw [show 2 * k / 2 = k by omega, show (2 * k + 1) / 2 = k by omega, Nat.and_self] at hhalf
      exact ⟨0, by rw [hhalf]; rfl⟩
    · rw [show (2 * k + 1) / 2 = k by omega, show (2 * k + 1 + 1) / 2 = k + 1 by omega] at hhalf
      obtain ⟨j, hj⟩ := ih k (by omega) hhalf
      exact ⟨j + 1, by rw [pow_succ, ← hj]; ring⟩

/-- The mask of a prefix: ones, and behind them zeros. -/
def IsPrefixMask (mask : UInt32) : Prop :=
  ∃ length, 0 < length ∧ length ≤ 32 ∧ mask.toNat = 2 ^ 32 - 2 ^ (32 - length)

theorem exists_prefix_of_netmask {mask : UInt32} (h : ipv4NetmaskIsValid mask = true) :
    IsPrefixMask mask := by
  rw [ipv4NetmaskIsValid, Bool.and_eq_true, bne_iff_ne, beq_iff_eq] at h
  obtain ⟨hzero, hand⟩ := h
  have hmask : mask.toNat < 4294967296 := mask.toNat_lt
  have hpositive : 0 < mask.toNat := by
    rcases Nat.eq_zero_or_pos mask.toNat with h0 | hpos
    · exact absurd (UInt32.toNat_inj.1 h0) hzero
    · exact hpos
  have hhost : (~~~mask).toNat = 4294967295 - mask.toNat := by
    rw [UInt32.toNat_not]
    rfl
  have hsucc : (~~~mask + 1).toNat = 4294967295 - mask.toNat + 1 := by
    rw [UInt32.toNat_add, hhost]
    exact Nat.mod_eq_of_lt (by simp; omega)
  have hbits := congrArg UInt32.toNat hand
  rw [UInt32.toNat_and, hsucc, hhost] at hbits
  obtain ⟨k, hk⟩ := exists_pow_of_and_succ hbits
  have hlt : k < 32 := by
    by_contra hge
    have := Nat.pow_le_pow_right (show 0 < 2 by omega) (Nat.not_lt.1 hge)
    omega
  refine ⟨32 - k, by omega, by omega, ?_⟩
  rw [show 32 - (32 - k) = k by omega, ← hk]
  omega

/-! ### Times -/

theorem sevenEighths_toNat (seconds : UInt32) :
    (sevenEighths seconds).toNat = seconds.toNat * 7 / 8 := by
  have hlt : seconds.toNat < 4294967296 := seconds.toNat_lt
  have hproduct : (seconds.toUInt64 * 7).toNat = seconds.toNat * 7 := by
    rw [UInt64.toNat_mul, UInt32.toNat_toUInt64]
    exact Nat.mod_eq_of_lt (by simp; omega)
  rw [sevenEighths, UInt64.toNat_toUInt32, UInt64.toNat_div, hproduct]
  exact Nat.mod_eq_of_lt (by simp; omega)

/-- The rebind time of the message is between the renewal time and the lease time. -/
def RebindFits (options : DhcpOptions) (leaseSeconds renewalSeconds : UInt32) : Prop :=
  ∃ rebindSeconds, options.rebindTime = some rebindSeconds ∧ renewalSeconds < rebindSeconds ∧
    rebindSeconds < leaseSeconds

/-- The clamp of the rebind time works if the message has a rebind time that fits, or if the renewal
time is below seven eighths of the lease. -/
theorem dhcpAckRebind_ordered_iff (options : DhcpOptions) {leaseSeconds : UInt32}
    (hlease : leaseSeconds ≠ 0) (renewalSeconds : UInt32) :
    renewalSeconds < dhcpAckRebind options leaseSeconds renewalSeconds ∧
        dhcpAckRebind options leaseSeconds renewalSeconds < leaseSeconds ↔
      RebindFits options leaseSeconds renewalSeconds ∨
        renewalSeconds.toNat < leaseSeconds.toNat * 7 / 8 := by
  have heighths := sevenEighths_toNat leaseSeconds
  have hshorter : sevenEighths leaseSeconds < leaseSeconds := by
    have hpositive : 0 < leaseSeconds.toNat := by
      rcases Nat.eq_zero_or_pos leaseSeconds.toNat with h0 | hpos
      · exact absurd (UInt32.toNat_inj.1 h0) hlease
      · exact hpos
    rw [UInt32.lt_iff_toNat_lt, heighths]
    omega
  have hdefault : renewalSeconds < sevenEighths leaseSeconds ↔
      renewalSeconds.toNat < leaseSeconds.toNat * 7 / 8 := by
    rw [UInt32.lt_iff_toNat_lt, heighths]
  unfold dhcpAckRebind
  dsimp only
  cases hoption : options.rebindTime with
  | none =>
    have hfits : ¬RebindFits options leaseSeconds renewalSeconds := by
      rintro ⟨rebindSeconds, hsome, -⟩
      rw [hoption] at hsome
      cases hsome
    simp only [Option.getD_none, ite_self, hfits, false_or, hshorter, and_true, hdefault]
  | some rebindSeconds =>
    have hfits : RebindFits options leaseSeconds renewalSeconds ↔
        renewalSeconds < rebindSeconds ∧ rebindSeconds < leaseSeconds := by
      constructor
      · rintro ⟨other, hsome, hordered⟩
        rw [hoption] at hsome
        cases hsome
        exact hordered
      · exact fun hordered => ⟨rebindSeconds, hoption, hordered⟩
    rw [hfits, Option.getD_some]
    split
    · rename_i hclamped
      have hnot : ¬(renewalSeconds < rebindSeconds ∧ rebindSeconds < leaseSeconds) := by
        rintro ⟨h1, h2⟩
        rcases hclamped with h | h
        · exact UInt32.not_le.2 h1 h
        · exact UInt32.not_le.2 h2 h
      simp only [hshorter, and_true, hnot, false_or, hdefault]
    · rename_i hkept
      rw [not_or, UInt32.not_le, ge_iff_le, UInt32.not_le] at hkept
      simp only [hkept, and_self, true_or]

namespace NetStack

theorem dhcpBound_dhcp (s : NetStack) (options : DhcpOptions) (offeredIp serverIp : UInt32) :
    (s.dhcpBound options offeredIp serverIp).dhcp.leaseSeconds = s.dhcpAckLease options ∧
    (s.dhcpBound options offeredIp serverIp).dhcp.renewalSeconds =
      dhcpAckRenewal options (s.dhcpAckLease options) ∧
    (s.dhcpBound options offeredIp serverIp).dhcp.rebindSeconds =
      dhcpAckRebind options (s.dhcpAckLease options)
        (dhcpAckRenewal options (s.dhcpAckLease options)) := by
  unfold dhcpBound
  generalize s.dhcpConfiguration options (s.dhcpAckAddress offeredIp) = config
  generalize hlease : s.dhcpAckLease options = lease
  have hstored : (s.dhcpStoreLease serverIp lease).dhcp.leaseSeconds = lease := by
    rw [dhcpStoreLease, withDhcp_dhcp]
  generalize s.dhcpStoreLease serverIp lease = stored at hstored ⊢
  obtain ⟨arp, hconfig⟩ := control_netConfigureIpv4 stored config
  have hdhcp : (stored.netConfigureIpv4 config).dhcp = stored.dhcp := dhcp_of_control hconfig
  rw [dhcpBind, withDhcp_dhcp, hdhcp]
  exact ⟨hstored, rfl, rfl⟩

/-- What an ACK must leave behind: an address, the mask of a prefix, a gateway and a resolver that
are usable or absent. -/
structure UsableConfig (config : NetIpv4Config) : Prop where
  address : ipv4IsUsableUnicast config.address = true
  netmask : IsPrefixMask config.netmask
  gateway : ipv4IsUsableUnicast config.gateway = true ∨ config.gateway = 0
  dns : ipv4IsUsableUnicast config.dns = true ∨ config.dns = 0

theorem usableConfig_dhcpConfiguration (s : NetStack) (options : DhcpOptions) {address : UInt32}
    (h : ipv4IsUsableUnicast address = true) :
      UsableConfig (s.dhcpConfiguration options address) := by
  have hchoice (ip : UInt32) :
    ipv4IsUsableUnicast (if ipv4IsUsableUnicast ip then ip else 0) = true ∨
      (if ipv4IsUsableUnicast ip then ip else 0) = 0 := by
    split
    · rename_i husable
      exact .inl husable
    · exact .inr rfl
  refine ⟨h, ?_, hchoice _, hchoice _⟩
  rw [dhcpConfiguration]
  dsimp only
  split
  · rename_i hvalid
    exact exists_prefix_of_netmask hvalid
  · exact exists_prefix_of_netmask (by decide)

/-- After an ACK that is accepted the configuration is usable.  The times are in order exactly if
the message has a rebind time that fits, or the renewal time is below seven eighths of the lease. -/
theorem accepted_ack_iff (s : NetStack) (sourceIp : UInt32) (packet : Memory) (packetSize : ℕ)
    (options : DhcpOptions) (hack : s.TakesAck packet packetSize options)
    (haccepted : (s.dhcpReceive sourceIp packet packetSize).1 = true) :
    UsableConfig (s.dhcpReceive sourceIp packet packetSize).2.ipv4 ∧
    ((s.dhcpReceive sourceIp packet packetSize).2.dhcp.renewalSeconds <
          (s.dhcpReceive sourceIp packet packetSize).2.dhcp.rebindSeconds ∧
        (s.dhcpReceive sourceIp packet packetSize).2.dhcp.rebindSeconds <
          (s.dhcpReceive sourceIp packet packetSize).2.dhcp.leaseSeconds ↔
      RebindFits options (s.dhcpAckLease options)
          (dhcpAckRenewal options (s.dhcpAckLease options)) ∨
        (dhcpAckRenewal options (s.dhcpAckLease options)).toNat <
          (s.dhcpAckLease options).toNat * 7 / 8) := by
  rcases hresult : s.dhcpReceive sourceIp packet packetSize with ⟨ok, s'⟩
  rw [hresult] at haccepted
  have heq := hresult
  rw [dhcpReceive_eq_of_takesAck hack] at heq
  cases dhcpReceiveAck_outcome heq with
  | noAddress => cases haccepted
  | noLease => cases haccepted
  | bound usable =>
    have hlease : s.dhcpAckLease options ≠ 0 := by
      intro hzero
      rw [dhcpReceiveAck_of_zero ((dhcpAckLease_eq_zero_iff s options).1 hzero) usable] at heq
      cases heq
    obtain ⟨dhcp, arp, hcontrol, -⟩ := control_dhcpBound s options (u32At packet 16)
      (dhcpServer options sourceIp)
    obtain ⟨hleaseSeconds, hrenewal, hrebind⟩ := dhcpBound_dhcp s options (u32At packet 16)
      (dhcpServer options sourceIp)
    rw [ipv4_of_control hcontrol, hleaseSeconds, hrenewal, hrebind]
    exact ⟨usableConfig_dhcpConfiguration s options usable,
      dhcpAckRebind_ordered_iff options hlease _⟩

/-- The options of an ACK with a lease of an hour and a renewal time of one second less. -/
def lateRenewal : List UInt8 := [53, 1, 5] ++ [51, 4] ++ writeU32 3600 ++ [58, 4] ++ writeU32 3599

/-- The ACK is accepted, and the client will renew behind the rebind time. -/
theorem late_renewal_is_stored :
    let result := renewingClient.dhcpReceive 0x0A000001 (byteAt (sampleMessage lateRenewal)) 256
    result.1 = true ∧ result.2.dhcp.state = .bound ∧ result.2.dhcp.renewalSeconds = 3599 ∧
      result.2.dhcp.rebindSeconds = 3150 ∧ result.2.dhcp.leaseSeconds = 3600 := by
  decide +kernel

/-- The options that `lateRenewal` is parsed to. -/
def lateRenewalOptions : DhcpOptions :=
  { (default : DhcpOptions) with
    messageType := some 5, leaseTime := some 3600, renewalTime := some 3599 }

theorem accepted_ack_iff_lateRenewal :
    renewingClient.TakesAck (byteAt (sampleMessage lateRenewal)) 256 lateRenewalOptions ∧
    UsableConfig
      (renewingClient.dhcpReceive 0x0A000001 (byteAt (sampleMessage lateRenewal)) 256).2.ipv4 := by
  have hack : renewingClient.TakesAck (byteAt (sampleMessage lateRenewal)) 256 lateRenewalOptions :=
    ⟨⟨by decide +kernel, by decide +kernel⟩, rfl, by decide +kernel, by decide +kernel⟩
  exact ⟨hack, (accepted_ack_iff renewingClient 0x0A000001 _ 256 _ hack (by decide +kernel)).1⟩

end NetStack

end Nostalux.Net
