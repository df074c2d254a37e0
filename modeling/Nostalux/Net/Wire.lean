import Nostalux.Net.Control

/-!
# Frames on the wire

Frames are built in place in `transmit_frame`, partly from data that lies there.  This file gives
what is handed to the link in closed form.

* `sendIpv4WithMac_hands`: the frame of `send_ipv4_with_mac` (`ipv4Packet` in an `ethernetFrame`);
* `netArpRequest_cases`, `sendArpReply_hands`: ARP frames;
* `sendOutcome_netIpv4Send`, `sendOutcome_netUdpSend`, `flushOutcome_flushPendingIpv4`: everything
  that sending and flushing can do.
-/

open Memory

namespace Nostalux.Net

open BigEndian Pointer List

/-- An Ethernet frame. -/
def ethernetFrame (destination source : Mac) (ethertype : UInt16) (payload : List UInt8) :
    List UInt8 :=
  destination.bytes 0 6 ++ source.bytes 0 6 ++ writeU16 ethertype ++ payload

/-- The IPv4 packet that `send_ipv4_with_mac` builds. -/
def ipv4Packet (identification : UInt16) (sourceIp destinationIp : UInt32) (protocol : UInt8)
    (data : List UInt8) : List UInt8 :=
  NetStack.ipv4Header identification sourceIp destinationIp protocol data.length
    (internetChecksum (byteAt (NetStack.ipv4Header identification sourceIp destinationIp protocol
      data.length 0)) netIpv4HeaderMinSize) ++ data

/-- The UDP datagram that `net_udp_send` builds. -/
def udpPacket (sourceIp destinationIp : UInt32) (sourcePort destinationPort : UInt16)
    (data : List UInt8) : List UInt8 :=
  let checksum := transportChecksum sourceIp destinationIp netIpv4ProtocolUdp
    (byteAt (NetStack.udpHeader sourcePort destinationPort data.length 0 ++ data)) (8 + data.length)
  NetStack.udpHeader sourcePort destinationPort data.length
    (if checksum = 0 then 0xFFFF else checksum) ++ data

/-- A pointer to data that the headers of an IPv4 frame do not overwrite. -/
def Pointer.Behind : Pointer → Prop
  | .transmit off => 34 ≤ off
  | _ => True

/-- A pointer to data outside of `transmit_frame`. -/
def Pointer.Outside : Pointer → Prop
  | .transmit _ => False
  | _ => True

theorem Pointer.Outside.behind {pointer : Pointer} (h : pointer.Outside) : pointer.Behind := by
  cases pointer with
  | transmit off => exact h.elim
  | _ => trivial

theorem Pointer.Outside.read_eq {pointer : Pointer} (h : pointer.Outside) (s s' : NetStack) :
    pointer.read s = pointer.read s' := by
  cases pointer with
  | transmit off => exact h.elim
  | _ => rfl

theorem Pointer.outside_ofCaller (m : Option Memory) : (ofCaller m).Outside := by
  cases m <;> trivial

section

variable {m m' : Memory} {size : ℕ} (h : m.bytes size = m'.bytes size)
include h

theorem internetChecksum_congr : internetChecksum m size = internetChecksum m' size := by
  rw [internetChecksum, internetChecksum, checksumAdd, checksumAdd, h]

theorem transportChecksum_congr (sourceIp destinationIp : UInt32) (protocol : UInt8) :
    transportChecksum sourceIp destinationIp protocol m size =
      transportChecksum sourceIp destinationIp protocol m' size := by
  rw [transportChecksum, transportChecksum, checksumAdd, h, ← checksumAdd]

end

/-! ### Reading frames back -/

theorem shift_byteAt_append {l r : List UInt8} {k : ℕ} (h : l.length = k) :
    shift (byteAt (l ++ r)) k = byteAt r := by
  subst h
  exact byteAt_append_right_eq l r

section

variable (destination source : Mac) (ethertype : UInt16) (payload : List UInt8)

theorem shift_ethernetFrame :
    shift (byteAt (ethernetFrame destination source ethertype payload)) 14 =
      byteAt payload :=
  shift_byteAt_append (by simp)

theorem u16At_ethernetFrame :
    u16At (byteAt (ethernetFrame destination source ethertype payload)) 12 = ethertype := by
  have h := u16At_append_writeU16 (destination.bytes 0 6 ++ source.bytes 0 6) payload ethertype
  rw [← append_assoc] at h
  simpa [ethernetFrame] using h

end

section

variable (identification : UInt16) (sourceIp destinationIp : UInt32) (protocol : UInt8)
  (data : List UInt8)

theorem shift_ipv4Packet :
    shift (byteAt (ipv4Packet identification sourceIp destinationIp protocol data)) 20 =
      byteAt data :=
  shift_byteAt_append rfl

theorem ipv4HeaderSize_ipv4Packet : NetStack.ipv4HeaderSize
    (byteAt (ipv4Packet identification sourceIp destinationIp protocol data)) = 20 := by
  have h : byteAt (ipv4Packet identification sourceIp destinationIp protocol data) 0 = 0x45 := rfl
  rw [NetStack.ipv4HeaderSize, h]
  rfl

theorem protocol_ipv4Packet :
    byteAt (ipv4Packet identification sourceIp destinationIp protocol data) 9 = protocol := rfl

theorem totalSize_ipv4Packet :
    u16At (byteAt (ipv4Packet identification sourceIp destinationIp protocol data)) 2 =
      UInt16.ofNat (20 + data.length) :=
  u16At_of_bytes fun k hk => by interval_cases k <;> rfl

theorem destinationIp_ipv4Packet :
    u32At (byteAt (ipv4Packet identification sourceIp destinationIp protocol data)) 16 =
      destinationIp :=
  u32At_of_bytes fun k hk => by interval_cases k <;> rfl

end

section

variable (sourceIp destinationIp : UInt32) (sourcePort destinationPort : UInt16)
  (data : List UInt8)

theorem destinationPort_udpPacket :
    readU16 (udpPacket sourceIp destinationIp sourcePort destinationPort data) 2 =
      destinationPort :=
  u16At_of_bytes fun k hk => by interval_cases k <;> rfl

end

/-- A part of what was written is replaced. -/
theorem bytes_blit_replace {m : Memory} {front middle middle' back : List UInt8}
    {off len : ℕ} (rest : ℕ) (hfront : front.length = off) (hmiddle : middle.length = len)
    (hmiddle' : middle'.length = len)
    (h : m.bytes (off + len + rest) = front ++ middle ++ back) :
    (m.blit off (byteAt middle') len).bytes (off + len + rest) = front ++ middle' ++ back := by
  rw [bytes_add, bytes_add] at h
  obtain ⟨hfirst, hlast⟩ := append_inj h (by simp [hfront, hmiddle])
  obtain ⟨hfirst, -⟩ := append_inj hfirst (by simp [hfront])
  rw [bytes_blit_middle, hfirst, hlast, ← hmiddle', bytes_byteAt]

namespace NetStack

variable {s : NetStack}

/-! ### The transmit buffer -/

/-- What is written behind a front part extends it. -/
theorem bytes_write (s : NetStack) (off : ℕ) (bytes : List UInt8) :
    (s.write off bytes).transmitFrame.bytes (off + bytes.length) =
      s.transmitFrame.bytes off ++ bytes := by
  rw [write_transmitFrame, bytes_blit, bytes_byteAt]

theorem write_of_le {off j : ℕ} {bytes : List UInt8} (h : off + bytes.length ≤ j) :
    (s.write off bytes).transmitFrame j = s.transmitFrame j := by
  rw [write_transmitFrame]
  exact blit_of_not _ (.inr h)

variable (s)

theorem bytes_copy (off : ℕ) (source : Pointer) (size : ℕ) :
    (s.copy off source size).transmitFrame.bytes (off + size) =
      s.transmitFrame.bytes off ++ (source.read s).bytes size := by
  rw [copy_transmitFrame, bytes_blit]

theorem bytes_writeEthernetHeader (destination : Mac) (ethertype : UInt16) :
    (s.writeEthernetHeader destination ethertype).transmitFrame.bytes 14 =
      ethernetFrame destination s.mac ethertype [] := by
  have h₁ := bytes_write s 0 (destination.bytes 0 6)
  have h₂ := bytes_write (s.write 0 (destination.bytes 0 6)) 6 (s.mac.bytes 0 6)
  have h₃ := bytes_write ((s.write 0 (destination.bytes 0 6)).write 6 (s.mac.bytes 0 6)) 12
    (writeU16 ethertype)
  rw [Buffer.length_bytes] at h₁ h₂
  rw [length_writeU16] at h₃
  rw [writeEthernetHeader, ethernetFrame, append_nil]
  exact h₃.trans (congrArg (· ++ _) (h₂.trans (congrArg (· ++ _) h₁)))

variable {s}

theorem writeEthernetHeader_of_le (destination : Mac) (ethertype : UInt16) {j : ℕ} (h : 14 ≤ j) :
    (s.writeEthernetHeader destination ethertype).transmitFrame j = s.transmitFrame j := by
  rw [writeEthernetHeader, write_of_le (by simpa using h), write_of_le (by simp; omega),
    write_of_le (by simp; omega)]

/-! ### Stacks that are alike but for the frame that is built -/

/-- `built` is the stack after parts of a frame were written to the buffer. -/
structure Builds (s built : NetStack) : Prop where
  answers : built.answers = s.answers
  events : built.events = s.events
  pending : built.pendingIpv4 = s.pendingIpv4
  queued : built.queued = s.queued
  control : built.control = s.control

theorem Builds.trans {s₁ s₂ s₃ : NetStack} (h : s₁.Builds s₂) (h' : s₂.Builds s₃) :
    s₁.Builds s₃ where
  answers := h'.answers.trans h.answers
  events := h'.events.trans h.events
  pending := h'.pending.trans h.pending
  queued := h'.queued.trans h.queued
  control := h'.control.trans h.control

variable (s)

theorem builds_write (off : ℕ) (bytes : List UInt8) :
    s.Builds (s.write off bytes) := ⟨rfl, rfl, rfl, rfl, control_write s off bytes⟩

theorem builds_copy (off : ℕ) (source : Pointer) (size : ℕ) :
    s.Builds (s.copy off source size) := ⟨rfl, rfl, rfl, rfl, control_copy s off source size⟩

theorem builds_count (update : NetStats → NetStats) : s.Builds (s.count update) :=
  ⟨rfl, rfl, rfl, rfl, control_count s update⟩

theorem builds_writeEthernetHeader (destination : Mac) (ethertype : UInt16) :
    s.Builds (s.writeEthernetHeader destination ethertype) :=
  ((builds_write s _ _).trans (builds_write _ _ _)).trans (builds_write _ _ _)

theorem builds_buildIpv4 (destinationIp : UInt32) (protocol : UInt8)
    (payload : Pointer) (payloadSize : ℕ) (mac : Mac) :
    s.Builds (s.buildIpv4 destinationIp protocol payload payloadSize mac) := by
  have hheader := (builds_writeEthernetHeader s mac ethertypeIpv4).trans
    (builds_write _ 14 (ipv4Header s.nextIpv4Id s.ipv4.address destinationIp protocol
      payloadSize 0))
  have hcontrol := control_buildIpv4 s destinationIp protocol payload payloadSize mac
  unfold buildIpv4 at hcontrol ⊢
  generalize (s.writeEthernetHeader mac ethertypeIpv4).write 14
    (ipv4Header s.nextIpv4Id s.ipv4.address destinationIp protocol payloadSize 0) =
      header at hheader hcontrol ⊢
  exact ⟨hheader.answers, hheader.events, hheader.pending, hheader.queued, hcontrol⟩

theorem builds_buildUdp (destinationIp : UInt32)
    (destinationPort sourcePort : UInt16) (data : Pointer) (dataSize : ℕ) :
    s.Builds (s.buildUdp destinationIp destinationPort sourcePort data dataSize) :=
  ((builds_write s _ _).trans (builds_copy _ _ _ _)).trans (builds_write _ _ _)

theorem builds_buildEcho (identifier sequence : UInt16) (payload : Pointer)
    (payloadSize : ℕ) : s.Builds (s.buildEcho identifier sequence payload payloadSize) :=
  ((builds_write s _ _).trans (builds_copy _ _ _ _)).trans (builds_write _ _ _)

/-! ### The link -/

/-- A frame is handed to the link, which gives its next answer. -/
structure Hands (s : NetStack) (frame : List UInt8) (cause : NetCause)
    (result : Bool × NetStack) : Prop where
  ok : result.1 = s.answers 0
  answers : result.2.answers = fun k => s.answers (k + 1)
  events : result.2.events = .transmit frame result.1 cause :: s.events
  pending : result.2.pendingIpv4 = s.pendingIpv4
  queued : result.2.queued = s.queued
  control : result.2.control = s.control

theorem linkTransmit_hands (cause : NetCause) {frameSize : ℕ} (h : 14 ≤ frameSize)
    (h' : frameSize ≤ 1514) :
    s.Hands (s.transmitFrame.bytes frameSize) cause (s.linkTransmit cause frameSize) := by
  have hcontrol := control_linkTransmit s cause frameSize
  unfold linkTransmit at hcontrol ⊢
  have hsize : ¬(frameSize < netEthernetHeaderSize ∨ frameSize > netEthernetFrameMax) :=
    not_or.mpr ⟨h.not_gt, h'.not_gt⟩
  rw [if_neg hsize] at hcontrol ⊢
  split
  · rename_i hok
    rw [if_pos hok] at hcontrol
    refine ⟨hok.symm, rfl, ?_, rfl, rfl, hcontrol⟩
    rw [← hok]
    rfl
  · rename_i hok
    rw [if_neg hok] at hcontrol
    have hok : s.answers 0 = false := by simpa using hok
    refine ⟨hok.symm, rfl, ?_, rfl, rfl, hcontrol⟩
    rw [← hok]
    rfl

variable {s}

/-- The frame is handed over by the stack that it was built for. -/
theorem Hands.of_builds {built : NetStack} {frame : List UInt8} {cause : NetCause}
    {result : Bool × NetStack} (hbuilds : s.Builds built) (h : built.Hands frame cause result) :
    s.Hands frame cause result where
  ok := h.ok.trans (congrFun hbuilds.answers 0)
  answers := h.answers.trans (by rw [hbuilds.answers])
  events := h.events.trans (by rw [hbuilds.events])
  pending := h.pending.trans hbuilds.pending
  queued := h.queued.trans hbuilds.queued
  control := h.control.trans hbuilds.control

theorem Hands.trans_builds {frame : List UInt8} {cause : NetCause} {ok : Bool}
    {s₁ s₂ : NetStack} (h : s.Hands frame cause (ok, s₁)) (hbuilds : s₁.Builds s₂) :
    s.Hands frame cause (ok, s₂) where
  ok := h.ok
  answers := hbuilds.answers.trans h.answers
  events := hbuilds.events.trans h.events
  pending := hbuilds.pending.trans h.pending
  queued := hbuilds.queued.trans h.queued
  control := hbuilds.control.trans h.control

/-! ### ARP frames -/

/-- The ARP frame that the stack sends. -/
def arpFrame (s : NetStack) (destination : Mac) (operation : UInt16) (targetMac : Mac)
    (targetIp : UInt32) : List UInt8 :=
  ethernetFrame destination s.mac ethertypeArp (s.arpPacket operation targetMac targetIp)

variable (s)

theorem length_arpPacket (operation : UInt16) (targetMac : Mac)
    (targetIp : UInt32) : (s.arpPacket operation targetMac targetIp).length = 28 := by
  simp [arpPacket]

theorem hands_arp (cause : NetCause) (destination : Mac) (operation : UInt16)
    (targetMac : Mac) (targetIp : UInt32) :
    s.Hands (s.arpFrame destination operation targetMac targetIp) cause
      (linkTransmit ((s.writeEthernetHeader destination ethertypeArp).write 14
        (s.arpPacket operation targetMac targetIp)) cause 42) := by
  have hbuilds := (builds_writeEthernetHeader s destination ethertypeArp).trans
    (builds_write _ 14 (s.arpPacket operation targetMac targetIp))
  have hbytes := bytes_write (s.writeEthernetHeader destination ethertypeArp) 14
    (s.arpPacket operation targetMac targetIp)
  rw [length_arpPacket, bytes_writeEthernetHeader] at hbytes
  generalize (s.writeEthernetHeader destination ethertypeArp).write 14
    (s.arpPacket operation targetMac targetIp) = built at hbuilds hbytes ⊢
  have h := (built.linkTransmit_hands cause (by omega : 14 ≤ 42) (by omega)).of_builds hbuilds
  rw [hbytes, ethernetFrame, append_nil] at h
  exact h

theorem sendArpReply_hands (mac : Mac) (ip : UInt32) :
    s.Hands (s.arpFrame mac 2 mac ip) .direct (s.sendArpReply mac ip) :=
  hands_arp s .direct mac 2 mac ip

/-- An ARP request is sent, unless there is nobody to ask or to answer to. -/
theorem netArpRequest_cases (cause : NetCause) (ip : UInt32) :
    s.netArpRequest cause ip = (false, s) ∨
    s.Hands (s.arpFrame macBroadcast 1 Buffer.zero ip) cause (s.netArpRequest cause ip) := by
  have h := hands_arp s cause macBroadcast 1 Buffer.zero ip
  unfold netArpRequest
  split
  · exact .inl rfl
  right
  split <;> rename_i s' heq <;> rw [heq] at h
  · exact h
  · exact h.trans_builds (builds_count _ _)

/-! ### IPv4 frames -/

/-- The IPv4 frame that the stack sends. -/
def ipv4Frame (s : NetStack) (identification : UInt16) (destination : Mac) (destinationIp : UInt32)
    (protocol : UInt8) (data : List UInt8) : List UInt8 :=
  ethernetFrame destination s.mac ethertypeIpv4
    (ipv4Packet identification s.ipv4.address destinationIp protocol data)

section

variable (identification : UInt16) (sourceIp destinationIp : UInt32) (protocol : UInt8)
  (payloadSize : ℕ)

@[simp] theorem length_ipv4Header (checksum : UInt16) :
    (ipv4Header identification sourceIp destinationIp protocol payloadSize checksum).length =
      20 := by
  simp [ipv4Header]

/-- The header around its checksum. -/
theorem ipv4Header_split : ∃ front back : List UInt8, front.length = 10 ∧ ∀ checksum,
      ipv4Header identification sourceIp destinationIp protocol payloadSize checksum =
        front ++ writeU16 checksum ++ back :=
  ⟨[0x45, 0] ++ writeU16 (UInt16.ofNat (netIpv4HeaderMinSize + payloadSize)) ++
      writeU16 identification ++ writeU16 0x4000 ++ [64, protocol],
    writeU32 sourceIp ++ writeU32 destinationIp, by simp, fun checksum => by simp [ipv4Header]⟩

end

variable {payload : Pointer}

theorem bytes_buildIpv4 (destinationIp : UInt32) (protocol : UInt8)
    (hbehind : payload.Behind) (payloadSize : ℕ) (mac : Mac) :
    (s.buildIpv4 destinationIp protocol payload payloadSize mac).transmitFrame.bytes
      (34 + payloadSize) =
      s.ipv4Frame s.nextIpv4Id mac destinationIp protocol ((payload.read s).bytes payloadSize) := by
  obtain ⟨front, back, hfront, hheader⟩ :=
    ipv4Header_split s.nextIpv4Id s.ipv4.address destinationIp protocol payloadSize
  rw [ipv4Frame, ipv4Packet, length_bytes]
  unfold buildIpv4
  dsimp only
  generalize hheader₀ :
    ipv4Header s.nextIpv4Id s.ipv4.address destinationIp protocol payloadSize 0 = header₀
  have hlength : header₀.length = 20 := by rw [← hheader₀, length_ipv4Header]
  generalize hbuilt : (s.writeEthernetHeader mac ethertypeIpv4).write 14 header₀ = built
  have hbytes : built.transmitFrame.bytes 34 =
      ethernetFrame mac s.mac ethertypeIpv4 [] ++ header₀ := by
    have h := bytes_write (s.writeEthernetHeader mac ethertypeIpv4) 14 header₀
    rw [hlength, bytes_writeEthernetHeader, hbuilt] at h
    exact h
  have hchecksum : internetChecksum (built.transmitFrame.shift 14) netIpv4HeaderMinSize =
      internetChecksum (byteAt header₀) netIpv4HeaderMinSize := by
    apply internetChecksum_congr
    apply bytes_congr
    intro i hi
    rw [← hbuilt, shift_apply, write_transmitFrame, blit_add]
    exact hlength ▸ hi
  rw [hchecksum]
  generalize internetChecksum (byteAt header₀) netIpv4HeaderMinSize = checksum
  have hsealed : (built.write 24 (writeU16 checksum)).transmitFrame.bytes 34 =
      ethernetFrame mac s.mac ethertypeIpv4 [] ++
        ipv4Header s.nextIpv4Id s.ipv4.address destinationIp protocol payloadSize checksum := by
    rw [← hheader₀, hheader, ← append_assoc, ← append_assoc] at hbytes
    rw [hheader, ← append_assoc, ← append_assoc]
    have hfront' : (ethernetFrame mac s.mac ethertypeIpv4 [] ++ front).length = 24 := by
      simp [ethernetFrame, hfront]
    exact bytes_blit_replace 8 hfront' (length_writeU16 0) (length_writeU16 checksum) hbytes
  -- the payload lies behind everything that was written so far
  have hpayload : (payload.read (built.write 24 (writeU16 checksum))).bytes payloadSize =
      (payload.read s).bytes payloadSize := by
    cases payload with
    | null => rfl
    | external m => rfl
    | transmit off =>
      apply bytes_congr
      intro i _
      have hoff : 34 ≤ off + i := Nat.le_add_right_of_le hbehind
      rw [Pointer.read, Pointer.read, shift_apply, shift_apply,
        write_of_le (by simp; omega), ← hbuilt, write_of_le (by omega),
        writeEthernetHeader_of_le _ _ (by omega)]
  have hcopy := bytes_copy (built.write 24 (writeU16 checksum)) 34 payload payloadSize
  rw [hsealed, hpayload] at hcopy
  refine Eq.trans ?_ (hcopy.trans ?_)
  · rfl
  · simp [ethernetFrame]

theorem sendIpv4WithMac_hands (cause : NetCause) (destinationIp : UInt32)
    (protocol : UInt8) (hbehind : payload.Behind) {payloadSize : ℕ}
    (hsize : payloadSize ≤ netIpv4PayloadMax) (hnull : payloadSize = 0 ∨ payload.isNull = false)
    (mac : Mac) :
    s.Hands (s.ipv4Frame s.nextIpv4Id mac destinationIp protocol
      ((payload.read s).bytes payloadSize)) cause
      (s.sendIpv4WithMac cause destinationIp protocol payload payloadSize mac) := by
  have h : s.Hands (s.ipv4Frame s.nextIpv4Id mac destinationIp protocol
    ((payload.read s).bytes payloadSize))
      cause (linkTransmit (s.buildIpv4 destinationIp protocol payload payloadSize mac) cause
        (34 + payloadSize)) := by
    have hlength : 34 + payloadSize ≤ 1514 := by
      have : payloadSize ≤ 1480 := hsize
      omega
    rw [← bytes_buildIpv4 s destinationIp protocol hbehind payloadSize mac]
    exact (linkTransmit_hands _ cause (by omega) hlength).of_builds (builds_buildIpv4 s _ _ _ _ _)
  unfold sendIpv4WithMac
  rw [if_neg]
  · split <;> rename_i s' heq <;> rw [heq] at h
    · exact h
    · exact h.trans_builds (builds_count _ _)
  · rintro (hlarge | ⟨hne, hn⟩)
    · exact hsize.not_gt hlarge
    · rcases hnull with h | h
      · exact hne h
      · rw [hn] at h
        cases h

/-! ### UDP datagrams -/

@[simp] theorem length_udpHeader (sourcePort destinationPort : UInt16) (dataSize : ℕ)
    (checksum : UInt16) : (udpHeader sourcePort destinationPort dataSize checksum).length = 8 := rfl

theorem bytes_buildUdp (destinationIp : UInt32)
    (destinationPort sourcePort : UInt16) {data : Pointer} (houtside : data.Outside)
    (dataSize : ℕ) :
    ((s.buildUdp destinationIp destinationPort sourcePort data dataSize).transmitFrame.shift
      34).bytes (8 + dataSize) =
      udpPacket s.ipv4.address destinationIp sourcePort destinationPort
        ((data.read s).bytes dataSize) := by
  unfold buildUdp udpPacket
  rw [length_bytes]
  dsimp only
  generalize hheader : udpHeader sourcePort destinationPort dataSize 0 = header
  have hlength : header.length = 8 := by rw [← hheader, length_udpHeader]
  generalize hbuilt : (s.write 34 header).copy 42 data dataSize = built
  have hbytes : (built.transmitFrame.shift 34).bytes (8 + dataSize) =
      header ++ (data.read s).bytes dataSize := by
    have hwrite := bytes_blit (s.transmitFrame.shift 34) 0 (byteAt header) 8
    have hcopy := bytes_blit ((s.write 34 header).transmitFrame.shift 34) 8
      (data.read (s.write 34 header)) dataSize
    rw [← hlength, bytes_byteAt, hlength, ← shift_blit] at hwrite
    rw [← shift_blit, houtside.read_eq _ s] at hcopy
    rw [← hbuilt, copy_transmitFrame, houtside.read_eq _ s]
    refine hcopy.trans (congrArg (· ++ _) ?_)
    rw [write_transmitFrame, hlength]
    exact hwrite
  have hchecksum := transportChecksum_congr (hbytes.trans
    (show _ = bytes (byteAt (header ++ (data.read s).bytes dataSize)) (8 + dataSize) by
      conv_lhs => rw [← bytes_byteAt (header ++ (data.read s).bytes dataSize)]
      rw [length_append, hlength, length_bytes]))
    s.ipv4.address destinationIp netIpv4ProtocolUdp
  rw [hchecksum]
  generalize transportChecksum s.ipv4.address destinationIp netIpv4ProtocolUdp
    (byteAt (header ++ (data.read s).bytes dataSize)) (8 + dataSize) = checksum
  rw [write_transmitFrame, length_writeU16]
  have h := shift_blit built.transmitFrame 34 6
    (byteAt (writeU16 (if checksum = 0 then 0xFFFF else checksum))) 2
  rw [← hheader] at hbytes
  refine (congrArg (bytes · _) h).trans ?_
  exact bytes_blit_replace dataSize rfl (length_writeU16 0) (length_writeU16 _) hbytes

variable {s}

/-! ### Sending -/

variable {s' : NetStack}

theorem ipv4IsSubnetBroadcast_congr (h : s'.ipv4 = s.ipv4) (ip : UInt32) :
    s'.ipv4IsSubnetBroadcast ip = s.ipv4IsSubnetBroadcast ip := by
  rw [ipv4IsSubnetBroadcast, ipv4IsSubnetBroadcast, h]

theorem netArpLookup_congr (h : s'.arp = s.arp) (ip : UInt32) :
    s'.netArpLookup ip = s.netArpLookup ip := by
  rw [netArpLookup, netArpLookup, arpFind, arpFind, h]

theorem routeIpv4_of_control (h : s'.control = s.control) (destinationIp : UInt32) :
    s'.routeIpv4 destinationIp = s.routeIpv4 destinationIp := by
  have hipv4 : s'.ipv4 = s.ipv4 := ipv4_of_control h
  have hlookup := netArpLookup_congr (arp_of_control h : s'.arp = s.arp)
  have hbroadcast : s'.ipv4IsBroadcast destinationIp = s.ipv4IsBroadcast destinationIp := by
    rw [ipv4IsBroadcast, ipv4IsBroadcast, ipv4IsSubnetBroadcast_congr hipv4]
  rw [routeIpv4, routeIpv4, hbroadcast, hipv4]
  simp only [hlookup]

/-- A packet is queued, and its next hop is asked for if that is possible. -/
structure Queues (s : NetStack) (packet : QueuedIpv4) (s' : NetStack) : Prop where
  pending : s'.pendingIpv4 =
    ⟨true, packet.destinationIp, packet.nextHopIp, packet.protocol, packet.payload,
      s.currentTimeMs, 1, 0, s.queued⟩
  queued : s'.queued = s.queued + 1
  events : s'.events = .queue s.queued packet :: s.events ∨
    ∃ ok, s'.events = .transmit (s.arpFrame macBroadcast 1 Buffer.zero packet.nextHopIp) ok
      (.resolving s.queued) :: .queue s.queued packet :: s.events
  control : s'.control = s.control

/-- What `net_ipv4_send` does with a packet. -/
inductive SendOutcome (s : NetStack) (destinationIp : UInt32) (protocol : UInt8)
    (data : List UInt8) : NetSendResult → NetStack → Prop
  | refused {s' : NetStack} (builds : s.Builds s') :
      SendOutcome s destinationIp protocol data .failed s'
  | handed {nextHopIp : UInt32} {mac : Mac} {identification : UInt16} {ok : Bool} {s' : NetStack}
      (route : s.routeIpv4 destinationIp = some ⟨nextHopIp, some mac⟩)
      (hands : s.Hands (s.ipv4Frame identification mac destinationIp protocol data) .direct
        (ok, s')) :
      SendOutcome s destinationIp protocol data (if ok then .sent else .failed) s'
  | queued {nextHopIp : UInt32} {s' : NetStack}
      (route : s.routeIpv4 destinationIp = some ⟨nextHopIp, none⟩)
      (free : s.pendingIpv4.valid = false)
      (queues : s.Queues (s.ipv4.packet destinationIp nextHopIp protocol data) s') :
      SendOutcome s destinationIp protocol data .queued s'

variable (s)

theorem queues_netArpRequest (destinationIp nextHopIp : UInt32) (protocol : UInt8)
    (payload : Pointer) (payloadSize : ℕ) :
    s.Queues (s.ipv4.packet destinationIp nextHopIp protocol ((payload.read s).bytes payloadSize))
      ((s.queueIpv4 destinationIp nextHopIp protocol payload payloadSize).netArpRequest
        (.resolving s.queued) nextHopIp).2 := by
  have hcontrol := control_queueIpv4 s destinationIp nextHopIp protocol payload payloadSize
  rcases netArpRequest_cases (s.queueIpv4 destinationIp nextHopIp protocol payload payloadSize)
    (.resolving s.queued) nextHopIp with h | h
  · rw [h]
    exact ⟨rfl, rfl, .inl rfl, hcontrol⟩
  · exact ⟨h.pending.trans rfl, h.queued.trans rfl, .inr ⟨_, h.events⟩,
      h.control.trans hcontrol⟩

theorem sendOutcome_netIpv4Send (destinationIp : UInt32) (protocol : UInt8)
    (hbehind : payload.Behind) (payloadSize : ℕ) :
    s.SendOutcome destinationIp protocol ((payload.read s).bytes payloadSize)
      (s.netIpv4Send destinationIp protocol payload payloadSize).1
      (s.netIpv4Send destinationIp protocol payload payloadSize).2 := by
  have hrefl : s.Builds s := ⟨rfl, rfl, rfl, rfl, rfl⟩
  unfold netIpv4Send
  split
  · exact .refused hrefl
  rename_i hok
  split
  · exact .refused hrefl
  split
  · exact .refused hrefl
  · rename_i mac hroute
    push Not at hok
    have h := sendIpv4WithMac_hands s .direct destinationIp protocol hbehind hok.2.1
      (or_iff_not_imp_left.2 fun hne => by simpa using hok.2.2 hne) mac
    split <;> rename_i s' heq <;> rw [heq] at h
    · exact .handed hroute h
    · have hhanded := SendOutcome.handed hroute h
      exact hhanded
  · rename_i hroute
    split
    · exact .refused hrefl
    · rename_i hfree
      exact .queued hroute (by simpa using hfree)
        (queues_netArpRequest s destinationIp _ protocol payload payloadSize)

variable {s}

theorem SendOutcome.of_builds {built s' : NetStack} {destinationIp : UInt32} {protocol : UInt8}
    {data : List UInt8} {result : NetSendResult} (hbuilds : s.Builds built)
    (h : built.SendOutcome destinationIp protocol data result s') :
    s.SendOutcome destinationIp protocol data result s' := by
  have hroute := routeIpv4_of_control hbuilds.control destinationIp
  have hipv4 : built.ipv4 = s.ipv4 := ipv4_of_control hbuilds.control
  have hmac : built.mac = s.mac := mac_of_control hbuilds.control
  cases h with
  | refused builds => exact .refused (hbuilds.trans builds)
  | handed route hands =>
    rw [hroute] at route
    rw [ipv4Frame, hipv4, hmac] at hands
    exact .handed route (hands.of_builds hbuilds)
  | queued route free queues =>
    rw [hroute] at route
    rw [hbuilds.pending] at free
    refine .queued route free ⟨?_, ?_, ?_, queues.control.trans hbuilds.control⟩
    · have htime : built.currentTimeMs = s.currentTimeMs := currentTimeMs_of_control hbuilds.control
      rw [queues.pending, htime, hbuilds.queued, hipv4]
    · rw [queues.queued, hbuilds.queued]
    · have hframe : built.arpFrame = s.arpFrame := by
        funext destination operation targetMac targetIp
        rw [arpFrame, arpFrame, arpPacket, arpPacket, hipv4, hmac]
      rw [← hbuilds.queued, ← hbuilds.events, ← hipv4, ← hframe]
      exact queues.events

theorem SendOutcome.trans_builds {s₁ s₂ : NetStack} {destinationIp : UInt32} {protocol : UInt8}
    {data : List UInt8} {result : NetSendResult}
    (h : s.SendOutcome destinationIp protocol data result s₁) (hbuilds : s₁.Builds s₂) :
    s.SendOutcome destinationIp protocol data result s₂ := by
  cases h with
  | refused builds => exact .refused (builds.trans hbuilds)
  | handed route hands => exact .handed route (hands.trans_builds hbuilds)
  | queued route free queues =>
    refine .queued route free ⟨hbuilds.pending.trans queues.pending,
      hbuilds.queued.trans queues.queued, ?_, hbuilds.control.trans queues.control⟩
    rw [hbuilds.events]
    exact queues.events

/-- What `flush_pending_ipv4` does. -/
inductive FlushOutcome (s : NetStack) : NetStack → Prop
  /-- Nothing waits, or the next hop is still unknown. -/
  | quiet (h : s.pendingIpv4.valid = true → s.netArpLookup s.pendingIpv4.nextHopIp = none) :
      FlushOutcome s s
  /-- The packet is not handed over; `net_ipv4_send` queues no such packet. -/
  | oversized {s' : NetStack} {pending : NetPendingIpv4}
      (hsize : netIpv4PayloadMax < s.pendingIpv4.payload.length)
      (hpending : pending = { s.pendingIpv4 with
        arpRequestedMs := s.currentTimeMs
        transmitAttempts := s.pendingIpv4.transmitAttempts + 1 })
      (hs' : s' = s.withPending pending) : FlushOutcome s s'
  | handed {s₁ s' : NetStack} {pending : NetPendingIpv4} {identification : UInt16} {mac : Mac}
      {ok : Bool}
      (valid : s.pendingIpv4.valid = true)
      (lookup : s.netArpLookup s.pendingIpv4.nextHopIp = some mac)
      (size : s.pendingIpv4.payload.length ≤ netIpv4PayloadMax)
      (hands : s.Hands (s.ipv4Frame identification mac s.pendingIpv4.destinationIp
        s.pendingIpv4.protocol s.pendingIpv4.payload)
        (.queued s.pendingIpv4.ticket s.pendingIpv4.nextHopIp) (ok, s₁))
      (hpending : pending = if ok then { s.pendingIpv4 with valid := false } else
        { s.pendingIpv4 with
          arpRequestedMs := s.currentTimeMs
          transmitAttempts := s.pendingIpv4.transmitAttempts + 1 })
      (hs' : s' = s₁.withPending pending) : FlushOutcome s s'

variable (s)

theorem flushOutcome_flushPendingIpv4 : s.FlushOutcome s.flushPendingIpv4.2 := by
  unfold flushPendingIpv4
  split
  · rename_i hvalid
    exact .quiet fun h => by simp [h] at hvalid
  rename_i hvalid
  have hvalid : s.pendingIpv4.valid = true := by simpa using hvalid
  split
  · rename_i hlookup
    exact .quiet fun _ => hlookup
  rename_i mac hlookup
  by_cases hsize : s.pendingIpv4.payload.length ≤ netIpv4PayloadMax
  · have h := sendIpv4WithMac_hands s (.queued s.pendingIpv4.ticket s.pendingIpv4.nextHopIp)
      s.pendingIpv4.destinationIp s.pendingIpv4.protocol
      (show Behind (.external (byteAt s.pendingIpv4.payload)) from trivial) hsize (.inr rfl)
      mac
    rw [Pointer.read, bytes_byteAt] at h
    split <;> rename_i s₁ heq <;> rw [heq] at h
    · have htime : s₁.currentTimeMs = s.currentTimeMs := currentTimeMs_of_control h.control
      have hpending : s₁.pendingIpv4 = s.pendingIpv4 := h.pending
      rw [hpending, htime]
      exact .handed hvalid hlookup hsize h rfl rfl
    · have hpending : s₁.pendingIpv4 = s.pendingIpv4 := h.pending
      rw [hpending]
      exact .handed hvalid hlookup hsize (h.trans_builds (builds_count _ _)) rfl rfl
  · have hfail : s.sendIpv4WithMac (.queued s.pendingIpv4.ticket s.pendingIpv4.nextHopIp)
        s.pendingIpv4.destinationIp s.pendingIpv4.protocol
        (.external (byteAt s.pendingIpv4.payload)) s.pendingIpv4.payload.length mac = (false, s) :=
      if_pos (.inl (by simpa using hsize))
    rw [hfail]
    exact .oversized (by simpa using hsize) rfl rfl

/-- What `net_udp_send` does with a datagram. -/
theorem sendOutcome_netUdpSend (destinationIp : UInt32)
    (destinationPort sourcePort : UInt16) {data : Pointer} (houtside : data.Outside)
    (dataSize : ℕ) :
    s.SendOutcome destinationIp netIpv4ProtocolUdp
      (udpPacket s.ipv4.address destinationIp sourcePort destinationPort
        ((data.read s).bytes dataSize))
      (s.netUdpSend destinationIp destinationPort sourcePort data dataSize).1
      (s.netUdpSend destinationIp destinationPort sourcePort data dataSize).2 := by
  unfold netUdpSend
  split
  · exact .refused ⟨rfl, rfl, rfl, rfl, rfl⟩
  have h := (sendOutcome_netIpv4Send
    (s.buildUdp destinationIp destinationPort sourcePort data dataSize) destinationIp
    netIpv4ProtocolUdp (show Behind (.transmit 34) from le_refl 34) (8 + dataSize)).of_builds
    (builds_buildUdp s destinationIp destinationPort sourcePort data dataSize)
  rw [Pointer.read, bytes_buildUdp s destinationIp destinationPort sourcePort houtside
    dataSize] at h
  split
  · rename_i s' heq
    rw [heq] at h
    dsimp only at h ⊢
    exact h.trans_builds (builds_count _ _)
  · rename_i heq
    rw [heq] at h
    exact h

/-- What `net_icmp_echo_request` does. -/
theorem sendOutcome_netIcmpEchoRequest (destinationIp : UInt32)
    (identifier sequence : UInt16) (payload : Pointer) (payloadSize : ℕ) :
    ∃ data, s.SendOutcome destinationIp netIpv4ProtocolIcmp data
      (s.netIcmpEchoRequest destinationIp identifier sequence payload payloadSize).1
      (s.netIcmpEchoRequest destinationIp identifier sequence payload payloadSize).2 := by
  unfold netIcmpEchoRequest
  split
  · exact ⟨[], .refused ⟨rfl, rfl, rfl, rfl, rfl⟩⟩
  have h := (sendOutcome_netIpv4Send (s.buildEcho identifier sequence payload payloadSize)
    destinationIp netIpv4ProtocolIcmp (show Behind (.transmit 34) from le_refl 34)
    (8 + payloadSize)).of_builds (builds_buildEcho s identifier sequence payload payloadSize)
  split
  · rename_i heq
    rw [heq] at h
    exact ⟨_, h⟩
  · rename_i s' heq
    rw [heq] at h
    exact ⟨_, h.trans_builds ⟨rfl, rfl, rfl, rfl, rfl⟩⟩

end NetStack

end Nostalux.Net
