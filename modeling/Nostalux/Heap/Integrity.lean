import Mathlib.Tactic
import Nostalux.Heap.Model
import Nostalux.Library.Align

/-!
# The heap over every sequence of calls

* `Tiles`: the blocks lie one behind the other and fill a range of addresses.
* `HeapInvariant`: what every call keeps.
* `heap_integrity`: what holds after every sequence of calls.
-/

namespace Nostalux.Memory

open List Heap Align

/-- The region of memory that is given to `heap_init`: an object, so it does not begin at `NULL` and
the address behind its last byte is one too. -/
structure HeapRegion where
  start : UInt64
  size : UInt64
  start_ne : start ≠ 0
  end_lt : start.toNat + size.toNat < 2 ^ 64

/-- What a call of `kmalloc` that succeeds gives to the caller. -/
structure Allocation where
  pointer : UInt64
  requested : UInt64
  deriving DecidableEq

/-- The byte at the address is one of those that were requested. -/
def Allocation.Holds (allocation : Allocation) (address : ℕ) : Prop :=
  allocation.pointer.toNat ≤ address ∧
    address < allocation.pointer.toNat + allocation.requested.toNat

/-- The calls of the clients. -/
inductive HeapCall
  | malloc (size : UInt64)
  | free (ptr : UInt64)

/-- The heap, and the allocations that are not freed yet. -/
structure HeapState where
  heap : Heap
  live : List Allocation

namespace HeapState

def init (region : HeapRegion) : HeapState := ⟨heapInit region.start region.size, []⟩

def step (s : HeapState) : HeapCall → HeapState
  | .malloc size =>
    ⟨(s.heap.kmalloc size).2,
      match (s.heap.kmalloc size).1 with
      | none => s.live
      | some pointer => ⟨pointer, size⟩ :: s.live⟩
  | .free ptr => ⟨s.heap.kfree ptr, s.live.filter fun allocation => allocation.pointer ≠ ptr⟩

def run (s : HeapState) (calls : List HeapCall) : HeapState := calls.foldl step s

end HeapState

/-! ## Lists of blocks -/

/-- The blocks fill the addresses from `first` to `last`, one behind the other. -/
def Tiles (first : ℕ) : List HeapBlock → ℕ → Prop
  | [], last => first = last
  | block :: rest, last =>
    block.address.toNat = first ∧ Tiles (first + 48 + block.size.toNat) rest last

/-- Two blocks that are not both free. -/
def NotBothFree (block next : HeapBlock) : Prop := ¬(block.isFree = true ∧ next.isFree = true)

/-- The blocks that are not free. -/
def allocated (blocks : List HeapBlock) : List HeapBlock := blocks.filter fun block => !block.isFree

/-- The sizes of the blocks that are not free. -/
def allocatedSize (blocks : List HeapBlock) : ℕ := ((allocated blocks).map (·.size.toNat)).sum

/-- The sizes of the blocks that are free. -/
def freeSize (blocks : List HeapBlock) : ℕ := ((blocks.filter (·.isFree)).map (·.size.toNat)).sum

variable {b : HeapBlock}

@[simp] theorem mem_allocated {l : List HeapBlock} :
    b ∈ allocated l ↔ b ∈ l ∧ b.isFree = false := by
  simp [allocated]

@[simp] theorem allocatedSize_append (l l' : List HeapBlock) :
    allocatedSize (l ++ l') = allocatedSize l + allocatedSize l' := by
  simp [allocatedSize, allocated]

@[simp] theorem allocatedSize_cons_free (h : b.isFree = true) (l : List HeapBlock) :
    allocatedSize (b :: l) = allocatedSize l := by
  simp [allocatedSize, allocated, h]

@[simp] theorem allocatedSize_cons_allocated (h : b.isFree = false)
    (l : List HeapBlock) : allocatedSize (b :: l) = b.size.toNat + allocatedSize l := by
  simp [allocatedSize, allocated, h]

theorem tiles_append {a e : ℕ} {l l' : List HeapBlock} :
    Tiles a (l ++ l') e ↔ ∃ m, Tiles a l m ∧ Tiles m l' e := by
  induction l generalizing a with
  | nil => simp [Tiles]
  | cons b l ih => simp [Tiles, ih, and_assoc]

namespace Tiles

variable {a e : ℕ} {b c : HeapBlock} {l : List HeapBlock}

section

variable (h : Tiles a l e)

include h

theorem le : a ≤ e := by
  induction l generalizing a with
  | nil => exact Nat.le_of_eq h
  | cons b l ih =>
    have := ih h.2
    omega

theorem bounds (hb : b ∈ l) : a ≤ b.address.toNat ∧ b.address.toNat + 48 + b.size.toNat ≤ e := by
  obtain ⟨l₁, l₂, rfl⟩ := append_of_mem hb
  obtain ⟨m, h₁, h₂⟩ := tiles_append.1 h
  have := h₁.le
  have := h₂.2.le
  have := h₂.1
  omega

/-- The blocks stand in the order of their addresses and do not overlap. -/
theorem pairwise : l.Pairwise fun b c => b.address.toNat + 48 + b.size.toNat ≤ c.address.toNat := by
  induction l generalizing a with
  | nil => exact .nil
  | cons b l ih =>
    refine .cons (fun c hc => ?_) (ih h.2)
    rw [h.1]
    exact (h.2.bounds hc).1

theorem apart (hb : b ∈ l) (hc : c ∈ l) (hne : b ≠ c) :
    b.address.toNat + 48 + b.size.toNat ≤ c.address.toNat ∨
      c.address.toNat + 48 + c.size.toNat ≤ b.address.toNat := by
  induction l generalizing a with
  | nil => cases hb
  | cons d l ih =>
    rcases mem_cons.1 hb with rfl | hb' <;> rcases mem_cons.1 hc with rfl | hc'
    · exact absurd rfl hne
    · exact .inl (rel_of_pairwise_cons h.pairwise hc')
    · exact .inr (rel_of_pairwise_cons h.pairwise hb')
    · exact ih h.2 hb' hc'

theorem eq_of_address (hb : b ∈ l) (hc : c ∈ l)
    (haddr : b.address.toNat = c.address.toNat) : b = c := by
  by_contra hne
  rcases h.apart hb hc hne with h | h <;> omega

theorem payload_toNat (he : e < 2 ^ 64) (hb : b ∈ l) : b.payload.toNat = b.address.toNat + 48 := by
  have := h.bounds hb
  exact toNat_add_of_lt (show b.address.toNat + 48 < 2 ^ 64 by omega)

theorem eq_of_payload (he : e < 2 ^ 64) (hb : b ∈ l) (hc : c ∈ l)
    (hpayload : b.payload = c.payload) : b = c := by
  have := congrArg UInt64.toNat hpayload
  rw [h.payload_toNat he hb, h.payload_toNat he hc] at this
  exact h.eq_of_address hb hc (by omega)

/-- The range is used for the allocated payloads, the free ones and the headers. -/
theorem sum : a + (allocatedSize l + freeSize l + 48 * l.length) = e := by
  induction l generalizing a with
  | nil => exact h
  | cons b l ih =>
    have := ih h.2
    cases hb : b.isFree
    · simp [allocatedSize, freeSize, allocated, hb] at this ⊢
      omega
    · simp [allocatedSize, freeSize, allocated, hb] at this ⊢
      omega

end

section

variable {pre post : List HeapBlock} (h : Tiles a (pre ++ b :: post) e)
include h

/-- The block between the others is not one of them. -/
theorem mem_release : c ∈ allocated (pre ++ { b with isFree := true } :: post) ↔
      c ∈ allocated (pre ++ b :: post) ∧ ¬c = b := by
  have hpair := pairwise_append.1 h.pairwise
  have hpre : b ∉ pre := fun hb => by
    have := hpair.2.2 b hb b (by simp)
    omega
  have hpost : b ∉ post := fun hb => by
    have := rel_of_pairwise_cons hpair.2.1 hb
    omega
  simp only [mem_allocated, mem_append, mem_cons]
  constructor
  · rintro ⟨hc | rfl | hc, hfree⟩
    · exact ⟨⟨.inl hc, hfree⟩, fun heq => hpre (heq ▸ hc)⟩
    · cases hfree
    · exact ⟨⟨.inr (.inr hc), hfree⟩, fun heq => hpost (heq ▸ hc)⟩
  · rintro ⟨⟨hc | rfl | hc, hfree⟩, hne⟩
    · exact ⟨.inl hc, hfree⟩
    · exact absurd rfl hne
    · exact ⟨.inr (.inr hc), hfree⟩

theorem release : Tiles a (pre ++ { b with isFree := true } :: post) e := by
  obtain ⟨m, hpre, hb⟩ := tiles_append.1 h
  exact tiles_append.2 ⟨m, hpre, hb⟩

end

end Tiles

/-- A chain of free blocks without two of them side by side has at most one block, so that the range
determines it. -/
theorem eq_of_all_free {a e : ℕ} {l l' : List HeapBlock} (h : Tiles a l e) (h' : Tiles a l' e)
    (hfree : allocated l = []) (hfree' : allocated l' = [])
    (hchain : l.IsChain NotBothFree) (hchain' : l'.IsChain NotBothFree) : l = l' := by
  have short {l : List HeapBlock} (hfree : allocated l = []) (hchain : l.IsChain NotBothFree) :
      l = [] ∨ ∃ b, l = [b] ∧ b.isFree = true := by
    have hall : ∀ b ∈ l, b.isFree = true := by simpa [allocated] using hfree
    match l, hchain with
    | [], _ => exact .inl rfl
    | [b], _ => exact .inr ⟨b, rfl, hall b (by simp)⟩
    | b :: c :: _, hchain =>
      exact absurd ⟨hall b (by simp), hall c (by simp)⟩ (isChain_cons_cons.1 hchain).1
  obtain rfl | ⟨⟨ad, sz, _⟩, rfl, rfl⟩ := short hfree hchain
  · obtain rfl | ⟨⟨ad', sz', _⟩, rfl, rfl⟩ := short hfree' hchain'
    · rfl
    · simp only [Tiles] at h h'
      omega
  · obtain rfl | ⟨⟨ad', sz', _⟩, rfl, rfl⟩ := short hfree' hchain'
    · simp only [Tiles] at h h'
      omega
    · simp only [Tiles] at h h'
      have had : ad = ad' := UInt64.toNat_inj.1 (h.1.trans h'.1.symm)
      have hsz : sz = sz' := UInt64.toNat_inj.1 (by omega)
      rw [had, hsz]

/-! ## The functions on the list -/

namespace Heap

/-- The value of the rounded size, if the rounding does not overflow. -/
theorem alignedSize_toNat {size : UInt64} (h : size.toNat + 15 < 2 ^ 64) :
    (alignedSize size).toNat = (size.toNat + 15) / 16 * 16 := by
  rw [alignedSize, toNat_and_not (show (15 : UInt64).toNat = 2 ^ 4 - 1 from rfl) (by omega),
    toNat_add_of_lt h]
  rfl

theorem kmallocFrom_eq_none_iff {n : UInt64} {l : List HeapBlock} :
    kmallocFrom n l = none ↔ ∀ b ∈ l, b.isFree = true → b.size < n := by
  induction l with
  | nil => simp [kmallocFrom]
  | cons b l ih =>
    rw [kmallocFrom]
    split
    next h => simpa using fun hb => absurd (hb h.1) (UInt64.not_lt.2 h.2)
    rename_i h
    simp only [Option.map_eq_none_iff, ih, forall_mem_cons, iff_and_self]
    exact fun _ hfree => UInt64.not_le.1 fun hle => h ⟨hfree, hle⟩

/-- The loop of `kmalloc` takes one free block, which is large enough. -/
theorem kmallocFrom_eq_some {n : UInt64} {l l' : List HeapBlock} {taken : HeapBlock}
    (h : kmallocFrom n l = some (taken, l')) :
    ∃ pre curr post, l = pre ++ curr :: post ∧ curr.isFree = true ∧ n ≤ curr.size ∧
      taken = (takeBlock n curr post).1 ∧ l' = pre ++ (takeBlock n curr post).2 := by
  induction l generalizing l' with
  | nil => cases h
  | cons b l ih =>
    rw [kmallocFrom] at h
    split at h
    next hb =>
      have htake : takeBlock n b l = (taken, l') := Option.some.inj h
      exact ⟨[], b, l, rfl, hb.1, hb.2, by rw [htake], by rw [htake]; rfl⟩
    next hb =>
      obtain ⟨⟨taken', blocks⟩, hrest, heq⟩ := Option.map_eq_some_iff.1 h
      obtain ⟨rfl, rfl⟩ := Prod.mk.inj heq
      obtain ⟨pre, curr, post, rfl, hfree, hle, htaken, rfl⟩ := ih hrest
      exact ⟨b :: pre, curr, post, rfl, hfree, hle, htaken, rfl⟩

/-- What `kmalloc` makes of the block it takes: the block itself, or two blocks in its place. -/
inductive Takes (n : UInt64) (curr : HeapBlock) : HeapBlock → List HeapBlock → Prop
  | whole (hle : n ≤ curr.size) :
    Takes n curr { curr with isFree := false } [{ curr with isFree := false }]
  | split (rest : HeapBlock) (hfree : rest.isFree = true)
      (haddress : rest.address.toNat = curr.address.toNat + 48 + n.toNat)
      (hsize : n.toNat + 48 + rest.size.toNat = curr.size.toNat) :
    Takes n curr ⟨curr.address, n, false⟩ [⟨curr.address, n, false⟩, rest]

theorem takes_takeBlock {n : UInt64} {curr : HeapBlock} (post : List HeapBlock)
    (hle : n ≤ curr.size) (hn : n.toNat + 64 < 2 ^ 64)
    (hend : curr.address.toNat + 48 + curr.size.toNat < 2 ^ 64) :
    ∃ blocks, (takeBlock n curr post).2 = blocks ++ post ∧
      Takes n curr (takeBlock n curr post).1 blocks := by
  have hneed : (n + heapBlockSize + 16).toNat = n.toNat + 64 := by
    have h48 : (n + heapBlockSize).toNat = n.toNat + 48 :=
      toNat_add_of_lt (show n.toNat + 48 < 2 ^ 64 by omega)
    rw [toNat_add_of_lt (by rw [h48]; exact hn), h48]
    rfl
  rw [takeBlock]
  split
  next hsplit =>
    have hroom : n.toNat + 64 ≤ curr.size.toNat := by
      rw [← hneed]
      exact UInt64.le_iff_toNat_le.1 hsplit
    refine ⟨_, rfl, .split _ rfl ?_ ?_⟩
    · have h48 : (curr.address + heapBlockSize).toNat = curr.address.toNat + 48 :=
        toNat_add_of_lt (show curr.address.toNat + 48 < 2 ^ 64 by omega)
      rw [toNat_add_of_lt (by rw [h48]; omega), h48]
    · have h1 : (curr.size - n).toNat = curr.size.toNat - n.toNat := UInt64.toNat_sub_of_le _ _ hle
      have h2 : (curr.size - n - heapBlockSize).toNat = (curr.size - n).toNat - 48 :=
        UInt64.toNat_sub_of_le _ _ (UInt64.le_iff_toNat_le.2 (by rw [h1]; show 48 ≤ _; omega))
      rw [h2, h1]
      omega
  · exact ⟨_, rfl, .whole hle⟩

namespace Takes

variable {n : UInt64} {curr taken : HeapBlock} {blocks pre post : List HeapBlock} {a e : ℕ}

section

variable (h : Takes n curr taken blocks)

include h

theorem taken_eq : taken.address = curr.address ∧ taken.isFree = false ∧ n ≤ taken.size := by
  cases h with
  | whole hle => exact ⟨rfl, rfl, hle⟩
  | split => exact ⟨rfl, rfl, UInt64.le_refl n⟩

theorem tiles (ht : Tiles a (pre ++ curr :: post) e) : Tiles a (pre ++ (blocks ++ post)) e := by
  obtain ⟨m, hpre, hcurr, hpost⟩ := tiles_append.1 ht
  refine tiles_append.2 ⟨m, hpre, ?_⟩
  cases h with
  | whole => exact ⟨hcurr, hpost⟩
  | split rest hfree haddress hsize =>
    refine ⟨hcurr, ?_, ?_⟩
    · show rest.address.toNat = m + 48 + n.toNat
      omega
    rwa [show m + 48 + n.toNat + 48 + rest.size.toNat = m + 48 + curr.size.toNat by omega]

theorem mem_allocated (hfree : curr.isFree = true) (b : HeapBlock) :
    b ∈ allocated (pre ++ (blocks ++ post)) ↔ b = taken ∨ b ∈ allocated (pre ++ curr :: post) := by
  cases h with
  | whole => simp; grind
  | split => simp; grind

theorem allocatedSize_eq (hfree : curr.isFree = true) : allocatedSize (pre ++ (blocks ++ post)) =
      allocatedSize (pre ++ curr :: post) + taken.size.toNat := by
  cases h with
  | whole => simp [hfree]; omega
  | split rest hrest => simp [hfree, hrest]; omega

/-- The block behind the one that is taken is not free, so that the rest of it has no free
neighbour. -/
theorem isChain (hfree : curr.isFree = true) (hchain : (pre ++ curr :: post).IsChain NotBothFree) :
    (pre ++ (blocks ++ post)).IsChain NotBothFree := by
  obtain ⟨hpre, hcurr, -⟩ := isChain_append.1 hchain
  obtain ⟨hhead, hpost⟩ := isChain_cons.1 hcurr
  refine isChain_append.2 ⟨hpre, ?_, ?_⟩
  · cases h with
    | whole => exact isChain_cons.2 ⟨fun _ _ h => by simp at h, hpost⟩
    | split rest hrest =>
      refine isChain_cons_cons.2 ⟨fun h => by simp at h, isChain_cons.2 ⟨?_, hpost⟩⟩
      exact fun y hy h => hhead y hy ⟨hfree, h.2⟩
  · cases h with
    | whole | split => exact fun x _ y hy h => by simp at hy; simp [← hy] at h

theorem forall_address (hn : n.toNat % 16 = 0)
    (haligned : ∀ b ∈ pre ++ curr :: post, 16 ≤ b.address.toNat ∧ b.address.toNat % 16 = 0) :
    ∀ b ∈ pre ++ (blocks ++ post), 16 ≤ b.address.toNat ∧ b.address.toNat % 16 = 0 := by
  have hcurr := haligned curr (by simp)
  have hpre := fun b (hb : b ∈ pre) => haligned b (by simp [hb])
  have hpost := fun b (hb : b ∈ post) => haligned b (by simp [hb])
  cases h with
  | whole =>
    simp only [mem_append, mem_singleton]
    rintro b (hb | rfl | hb)
    · exact hpre b hb
    · exact hcurr
    · exact hpost b hb
  | split rest hfree haddress =>
    have hrest : 16 ≤ rest.address.toNat ∧ rest.address.toNat % 16 = 0 := by omega
    simp only [mem_append, mem_cons, not_mem_nil, or_false]
    rintro b (hb | (rfl | rfl) | hb)
    · exact hpre b hb
    · exact hcurr
    · exact hrest
    · exact hpost b hb

end

end Takes

/-- Free blocks are merged with the free ones behind them: the range is filled as before, the
allocated blocks are the same ones, and there is no new address. -/
structure Coalesces (l l' : List HeapBlock) : Prop where
  tiles : ∀ {a e : ℕ}, e < 2 ^ 64 → Tiles a l e → Tiles a l' e
  allocated_eq : allocated l' = allocated l
  address : ∀ b ∈ l', ∃ c ∈ l, c.address = b.address

namespace Coalesces

variable {l l' l'' : List HeapBlock}

theorem refl (l : List HeapBlock) : Coalesces l l := ⟨fun _ h => h, rfl, fun b hb => ⟨b, hb, rfl⟩⟩

theorem trans (h : Coalesces l l') (h' : Coalesces l' l'') : Coalesces l l'' where
  tiles he ht := h'.tiles he (h.tiles he ht)
  allocated_eq := h'.allocated_eq.trans h.allocated_eq
  address b hb := by
    obtain ⟨c, hc, hcb⟩ := h'.address b hb
    obtain ⟨d, hd, hdc⟩ := h.address c hc
    exact ⟨d, hd, hdc.trans hcb⟩

theorem allocatedSize_eq (h : Coalesces l l') : allocatedSize l' = allocatedSize l := by
  rw [allocatedSize, h.allocated_eq, allocatedSize]

theorem append_left (pre : List HeapBlock) (h : Coalesces l l') :
    Coalesces (pre ++ l) (pre ++ l') where
  tiles he ht := by
    obtain ⟨m, hpre, hl⟩ := tiles_append.1 ht
    exact tiles_append.2 ⟨m, hpre, h.tiles he hl⟩
  allocated_eq := by
    have := h.allocated_eq
    simp only [allocated, filter_append] at this ⊢
    rw [this]
  address b hb := by
    rcases mem_append.1 hb with hb | hb
    · exact ⟨b, mem_append_left _ hb, rfl⟩
    · obtain ⟨c, hc, hcb⟩ := h.address b hb
      exact ⟨c, mem_append_right _ hc, hcb⟩

theorem merge {b c : HeapBlock} (hb : b.isFree = true) (hc : c.isFree = true)
    (l : List HeapBlock) : Coalesces (b :: c :: l) (mergeBlocks b c :: l) where
  tiles {a e} he ht := by
    obtain ⟨hbaddr, hcaddr, hl⟩ := ht
    have hle := hl.le
    have h48 : (heapBlockSize + c.size).toNat = 48 + c.size.toNat :=
      toNat_add_of_lt (show 48 + c.size.toNat < 2 ^ 64 by omega)
    have hsize : (mergeBlocks b c).size.toNat = b.size.toNat + 48 + c.size.toNat := by
      have hlt : b.size.toNat + (heapBlockSize + c.size).toNat < 2 ^ 64 := by omega
      rw [mergeBlocks, toNat_add_of_lt hlt, h48]
      omega
    refine ⟨hbaddr, ?_⟩
    rwa [hsize, show a + 48 + (b.size.toNat + 48 + c.size.toNat) =
      a + 48 + b.size.toNat + 48 + c.size.toNat by omega]
  allocated_eq := by simp [allocated, mergeBlocks, hb, hc]
  address d hd := by
    rcases mem_cons.1 hd with rfl | hd
    · exact ⟨b, by simp, rfl⟩
    · exact ⟨d, by simp [hd], rfl⟩

end Coalesces

theorem coalesces_mergeNext {b : HeapBlock} (hb : b.isFree = true) (l : List HeapBlock) :
    Coalesces (b :: l) (mergeNext b l) := by
  cases l with
  | nil => exact .refl _
  | cons c l =>
    rw [mergeNext]
    split
    next hc => exact .merge hb hc l
    · exact .refl _

variable (b : HeapBlock)

theorem coalesces_mergeFrom (l : List HeapBlock) : Coalesces (b :: l) (mergeFrom b l) := by
  induction l generalizing b with
  | nil => exact .refl _
  | cons c l ih =>
    rw [mergeFrom]
    split
    next h => exact (Coalesces.merge h.1 h.2 l).trans (ih _)
    · exact (ih c).append_left [b]

variable (l : List HeapBlock)

theorem coalesces_mergePass : Coalesces l (mergePass l) := by
  cases l with
  | nil => exact .refl _
  | cons b l => exact coalesces_mergeFrom b l

theorem mergeFrom_head (l : List HeapBlock) :
    ∃ c rest, mergeFrom b l = c :: rest ∧ c.isFree = b.isFree := by
  induction l generalizing b with
  | nil => exact ⟨b, [], rfl, rfl⟩
  | cons c l ih =>
    rw [mergeFrom]
    split
    · exact ih _
    · exact ⟨b, _, rfl, rfl⟩

/-- After the pass, no free block stands before a free one. -/
theorem isChain_mergeFrom (l : List HeapBlock) : (mergeFrom b l).IsChain NotBothFree := by
  induction l generalizing b with
  | nil => exact .singleton b
  | cons c l ih =>
    rw [mergeFrom]
    split
    · exact ih _
    rename_i h
    obtain ⟨d, rest, heq, hd⟩ := mergeFrom_head c l
    refine isChain_cons.2 ⟨fun y hy hboth => h ?_, ih c⟩
    rw [heq, head?_cons, Option.mem_some_iff] at hy
    exact ⟨hboth.1, by rw [← hd, hy, hboth.2]⟩

theorem isChain_mergePass : (mergePass l).IsChain NotBothFree := by
  cases l with
  | nil => exact .nil
  | cons b l => exact isChain_mergeFrom b l

theorem releaseBlock_append {ptr : UInt64} {pre post : List HeapBlock} {block : HeapBlock}
    (hpre : ∀ b ∈ pre, b.payload ≠ ptr) (hblock : block.payload = ptr) :
    releaseBlock ptr (pre ++ block :: post) = pre ++ mergeNext
      { block with isFree := true } post := by
  induction pre with
  | nil => rw [nil_append, releaseBlock, if_pos hblock, nil_append]
  | cons b pre ih =>
    rw [cons_append, releaseBlock, if_neg (hpre b (by simp)),
      ih fun c hc => hpre c (by simp [hc]), cons_append]

theorem kmalloc_eq_none_iff (heap : Heap) (size : UInt64) :
    (heap.kmalloc size).1 = none ↔ size = 0 ∨ 2 ^ 64 ≤ size.toNat + 15 ∨
      ∀ b ∈ heap.blocks, b.isFree = true → b.size.toNat < (size.toNat + 15) / 16 * 16 := by
  have hmax : size > sizeMax - 15 ↔ 2 ^ 64 ≤ size.toNat + 15 := by
    rw [gt_iff_lt, UInt64.lt_iff_toNat_lt, show (sizeMax - 15).toNat = 2 ^ 64 - 16 from rfl]
    omega
  rw [kmalloc]
  split
  next hnone =>
    rcases hnone with hzero | hnil
    · simp [hzero]
    · simp [hnil]
  next hnone =>
    split
    next hover => exact iff_of_true rfl (.inr (.inl (hmax.1 hover)))
    rename_i hover
    have hround : size.toNat + 15 < 2 ^ 64 := by
      rw [hmax] at hover
      omega
    have hfit : (∀ b ∈ heap.blocks, b.isFree = true →
          b.size.toNat < (size.toNat + 15) / 16 * 16) ↔
        kmallocFrom (alignedSize size) heap.blocks = none := by
      rw [kmallocFrom_eq_none_iff]
      simp only [UInt64.lt_iff_toNat_lt, alignedSize_toNat hround]
    split <;> simp_all

theorem kmalloc_of_none {heap : Heap} {size : UInt64} (h : (heap.kmalloc size).1 = none) :
    (heap.kmalloc size).2 = heap := by
  rw [kmalloc] at h ⊢
  split
  · rfl
  rename_i hnone
  rw [if_neg hnone] at h
  split
  · rfl
  rename_i hover
  rw [if_neg hover] at h
  cases htake : kmallocFrom (alignedSize size) heap.blocks with
  | none => rfl
  | some taken =>
    rw [htake] at h
    cases h

theorem foldl_free (total : UInt64) (h : total.toNat + freeSize l < 2 ^ 64) :
    (l.foldl (fun total curr => if curr.isFree then total + curr.size else total) total).toNat =
      total.toNat + freeSize l := by
  induction l generalizing total with
  | nil => simp [freeSize]
  | cons b l ih =>
    cases hb : b.isFree
    · have hsum : freeSize (b :: l) = freeSize l := by simp [freeSize, hb]
      rw [hsum] at h ⊢
      simpa [hb] using ih total h
    · have hsum : freeSize (b :: l) = b.size.toNat + freeSize l := by simp [freeSize, hb]
      have hadd : (total + b.size).toNat = total.toNat + b.size.toNat :=
        toNat_add_of_lt (by omega)
      have := ih (total + b.size) (by omega)
      rw [foldl_cons, if_pos hb, this]
      omega

end Heap

/-! ## The calls -/

/-- What every call keeps; `init` is the heap that `heap_init` made. -/
structure HeapInvariant (init : Heap) (s : HeapState) : Prop where
  totalSize_eq : s.heap.totalSize = init.totalSize
  heapStart_eq : s.heap.heapStart = init.heapStart
  heapEnd_eq : s.heap.heapEnd = init.heapEnd
  total : s.heap.heapStart.toNat + s.heap.totalSize.toNat = s.heap.heapEnd.toNat
  tiles : Tiles s.heap.heapStart.toNat s.heap.blocks s.heap.heapEnd.toNat
  aligned : ∀ b ∈ s.heap.blocks, 16 ≤ b.address.toNat ∧ b.address.toNat % 16 = 0
  isChain : s.heap.blocks.IsChain NotBothFree
  used : s.heap.usedSize.toNat = allocatedSize s.heap.blocks
  /-- A live allocation has a block of its own, which is large enough. -/
  held : ∀ x ∈ s.live, ∃ b ∈ allocated s.heap.blocks, b.payload = x.pointer ∧ x.requested ≤ b.size
  /-- An allocated block belongs to a live allocation. -/
  known : ∀ b ∈ allocated s.heap.blocks, ∃ x ∈ s.live, x.pointer = b.payload
  requested : ∀ x ∈ s.live, x.requested ≠ 0
  distinct : s.live.Pairwise fun x y => x.pointer ≠ y.pointer

theorem heapInvariant_empty : HeapInvariant empty ⟨empty, []⟩ where
  totalSize_eq := rfl
  heapStart_eq := rfl
  heapEnd_eq := rfl
  total := rfl
  tiles := rfl
  aligned := by simp [empty]
  isChain := .nil
  used := rfl
  held := by simp
  known := by simp [empty]
  requested := by simp
  distinct := .nil

theorem heapInvariant_heapInitAligned {start size : UInt64} (hstart : 16 ≤ start.toNat)
    (haligned : start.toNat % 16 = 0) (hend : start.toNat + size.toNat < 2 ^ 64) :
    HeapInvariant (heapInitAligned start size) ⟨heapInitAligned start size, []⟩ := by
  rw [heapInitAligned]
  split
  · exact heapInvariant_empty
  rename_i hsize
  have hle : 48 ≤ size.toNat := UInt64.le_iff_toNat_le.1 (UInt64.not_lt.1 hsize)
  have hsub : (size - heapBlockSize).toNat = size.toNat - 48 :=
    UInt64.toNat_sub_of_le _ _ (UInt64.not_lt.1 hsize)
  have hadd : (start + size).toNat = start.toNat + size.toNat := toNat_add_of_lt hend
  exact
    { totalSize_eq := rfl
      heapStart_eq := rfl
      heapEnd_eq := rfl
      total := hadd.symm
      tiles := ⟨rfl, by
        show start.toNat + 48 + (size - heapBlockSize).toNat = (start + size).toNat
        omega⟩
      aligned := by simpa using ⟨hstart, haligned⟩
      isChain := .singleton _
      used := rfl
      held := by simp
      known := by simp
      requested := by simp
      distinct := .nil }

/-- The first address that is used is a multiple of 16, and not 0. -/
theorem heapInvariant_init (region : HeapRegion) :
    HeapInvariant (heapInit region.start region.size) (HeapState.init region) := by
  obtain ⟨start, size, hne, hend⟩ := region
  have hpos : start.toNat ≠ 0 := fun h => hne (UInt64.toNat_inj.1 h)
  have hmod : (start % 16).toNat = start.toNat % 16 := UInt64.toNat_mod start 16
  show HeapInvariant (heapInit start size) ⟨heapInit start size, []⟩
  rw [heapInit]
  split
  next hmis =>
    have hadj : (16 - start % 16).toNat = 16 - start.toNat % 16 := by
      rw [UInt64.toNat_sub_of_le _ _ (UInt64.le_iff_toNat_le.2 (by rw [hmod]; show _ ≤ 16; omega)),
        hmod]
      rfl
    dsimp only
    split
    · exact heapInvariant_empty
    rename_i hsize
    have hlt := UInt64.lt_iff_toNat_lt.1 (UInt64.not_le.1 hsize)
    have hstart : (start + (16 - start % 16)).toNat = start.toNat + (16 - start.toNat % 16) := by
      rw [toNat_add_of_lt (by omega), hadj]
    have hrest : (size - (16 - start % 16)).toNat = size.toNat - (16 - start.toNat % 16) := by
      rw [UInt64.toNat_sub_of_le _ _ (UInt64.le_of_lt (UInt64.not_le.1 hsize)), hadj]
    exact heapInvariant_heapInitAligned (by omega) (by omega) (by omega)
  next hmis =>
    have hzero : start.toNat % 16 = 0 := by
      rw [← hmod, not_not.1 hmis]
      rfl
    exact heapInvariant_heapInitAligned (by omega) hzero hend

namespace HeapInvariant

variable {init : Heap} {s : HeapState}

section

variable (h : HeapInvariant init s)

include h

theorem payload_toNat {b : HeapBlock} (hb : b ∈ s.heap.blocks) :
    b.payload.toNat = b.address.toNat + 48 :=
  h.tiles.payload_toNat s.heap.heapEnd.toNat_lt hb

theorem eq_of_payload {b c : HeapBlock} (hb : b ∈ s.heap.blocks)
    (hc : c ∈ s.heap.blocks) (heq : b.payload = c.payload) : b = c :=
  h.tiles.eq_of_payload s.heap.heapEnd.toNat_lt hb hc heq

/-- The case of `kmalloc` in which a block is taken. -/
theorem take {size : UInt64} (hzero : size ≠ 0)
    (hsize : size.toNat + 15 < 2 ^ 64) {taken : HeapBlock} {blocks : List HeapBlock}
    (htake : kmallocFrom (alignedSize size) s.heap.blocks = some (taken, blocks)) :
    HeapInvariant init
      ⟨{ s.heap with blocks := blocks, usedSize := s.heap.usedSize + taken.size },
        ⟨taken.payload, size⟩ :: s.live⟩ := by
  obtain ⟨⟨_, total, used, start, last⟩, live⟩ := s
  obtain ⟨htotal, hstart, hend, hsum, htiles, haligned, hchain, hused, hheld, hknown,
    hrequested, hdistinct⟩ := h
  dsimp only at *
  obtain ⟨pre, curr, post, rfl, hfree, hle, rfl, rfl⟩ := kmallocFrom_eq_some htake
  have hround := alignedSize_toNat hsize
  have hmem : curr ∈ pre ++ curr :: post := by simp
  have hroom := htiles.bounds hmem
  have hlow := haligned curr hmem
  have hlast := last.toNat_lt
  have hlen := UInt64.le_iff_toNat_le.1 hle
  obtain ⟨blocks, heq, htakes⟩ := takes_takeBlock post hle (by omega) (by omega)
  generalize (takeBlock (alignedSize size) curr post).1 = taken at htakes ⊢
  rw [heq]
  obtain ⟨haddress, hnotfree, hfits⟩ := htakes.taken_eq
  have hnew := htakes.tiles htiles
  have hcur : ∀ b ∈ allocated (pre ++ curr :: post), b.payload ≠ taken.payload := by
    intro b hb hpayload
    -- The payload of the block that is taken is the one of the free block in its place.
    have hsame : taken.payload = curr.payload := by rw [HeapBlock.payload, haddress]; rfl
    obtain rfl := htiles.eq_of_payload hlast (mem_allocated.1 hb).1 hmem (hpayload.trans hsame)
    simp [hfree] at hb
  exact
    { totalSize_eq := htotal
      heapStart_eq := hstart
      heapEnd_eq := hend
      total := hsum
      tiles := hnew
      aligned := htakes.forall_address (by omega) haligned
      isChain := htakes.isChain hfree hchain
      used := by
        have hall := hnew.sum
        have hsplit : allocatedSize (pre ++ (blocks ++ post)) =
            allocatedSize (pre ++ curr :: post) + taken.size.toNat := htakes.allocatedSize_eq hfree
        rw [toNat_add_of_lt (by omega), hused, hsplit]
      held := by
        simp only [forall_mem_cons, htakes.mem_allocated hfree]
        refine ⟨⟨taken, .inl rfl, rfl, ?_⟩, fun x hx => ?_⟩
        · have := UInt64.le_iff_toNat_le.1 hfits
          exact UInt64.le_iff_toNat_le.2 (by omega)
        · obtain ⟨b, hb, hx⟩ := hheld x hx
          exact ⟨b, .inr hb, hx⟩
      known := by
        simp only [htakes.mem_allocated hfree]
        rintro b (rfl | hb)
        · exact ⟨_, mem_cons_self, rfl⟩
        · obtain ⟨x, hx, hxb⟩ := hknown b hb
          exact ⟨x, mem_cons_of_mem _ hx, hxb⟩
      requested := forall_mem_cons.2 ⟨hzero, hrequested⟩
      distinct := by
        refine .cons (fun x hx heq => ?_) hdistinct
        obtain ⟨b, hb, hbx, -⟩ := hheld x hx
        exact hcur b hb (hbx.trans heq.symm) }

theorem malloc (size : UInt64) : HeapInvariant init (s.step (.malloc size)) := by
  rw [HeapState.step, kmalloc]
  split
  · exact h
  rename_i hnone
  split
  · exact h
  rename_i hover
  have hround : size.toNat + 15 < 2 ^ 64 := by
    have := UInt64.le_iff_toNat_le.1 (UInt64.not_lt.1 hover)
    rw [show (sizeMax - 15).toNat = 2 ^ 64 - 16 from rfl] at this
    omega
  cases htake : kmallocFrom (alignedSize size) s.heap.blocks with
  | none => exact h
  | some taken => exact h.take (fun hzero => hnone (.inl hzero)) hround htake

/-- A pointer that passes the checks of `kfree` but does not belong to a live allocation is not the
payload of an allocated block. -/
theorem kfree_of_not_live {ptr : UInt64}
    (hptr : ∀ x ∈ s.live, x.pointer ≠ ptr) : s.heap.kfree ptr = s.heap := by
  rw [kfree]
  split
  · rfl
  split
  · rfl
  split
  · rfl
  rename_i block hfind
  split
  · rfl
  rename_i hfree
  have hpayload : block.payload = ptr := by simpa using find?_some hfind
  obtain ⟨x, hx, hxb⟩ := h.known block
    (mem_allocated.2 ⟨mem_of_find?_eq_some hfind, Bool.eq_false_iff.2 hfree⟩)
  exact absurd (hxb.trans hpayload) (hptr x hx)

/-- The pointer of a live allocation passes the checks of `kfree`, and its block is found. -/
theorem kfree_of_live {x : Allocation} (hx : x ∈ s.live) :
    ∃ pre block post, s.heap.blocks = pre ++ block :: post ∧ block.isFree = false ∧
      block.payload = x.pointer ∧
      s.heap.kfree x.pointer =
        { s.heap with
          usedSize := s.heap.usedSize - block.size
          blocks := mergePass (pre ++ mergeNext { block with isFree := true } post) } := by
  obtain ⟨block, hblock, hpayload, hsize⟩ := h.held x hx
  obtain ⟨hmem, hfree⟩ := mem_allocated.1 hblock
  have hvalue := h.payload_toNat hmem
  have hbounds := h.tiles.bounds hmem
  have haligned := h.aligned block hmem
  have hpos : 0 < block.size.toNat := by
    have hle := UInt64.le_iff_toNat_le.1 hsize
    have hne : x.requested.toNat ≠ 0 := fun h0 => h.requested x hx (UInt64.toNat_inj.1 h0)
    omega
  rw [hpayload] at hvalue
  obtain ⟨pre, post, hsplit⟩ := append_of_mem hmem
  -- no block before it has the same payload, so that the search stops at the block
  have hpre : ∀ b ∈ pre, b.payload ≠ x.pointer := by
    intro b hb heq
    have hpair := h.tiles.pairwise
    rw [hsplit] at hpair
    have hbefore := (pairwise_append.1 hpair).2.2 b hb block (by simp)
    have hb' : b ∈ s.heap.blocks := by simp [hsplit, hb]
    obtain rfl := h.eq_of_payload hb' hmem (heq.trans hpayload.symm)
    omega
  have hfind : s.heap.blocks.find? (fun curr => curr.payload = x.pointer) = some block := by
    rw [hsplit, find?_append, find?_eq_none.2 (by simpa using hpre)]
    simp [hpayload]
  have hzero : x.pointer ≠ 0 := fun h0 => by simp [h0] at hvalue
  have hchecks : ¬(x.pointer < s.heap.heapStart + heapBlockSize ∨ x.pointer ≥ s.heap.heapEnd ∨
      x.pointer &&& 0xF ≠ 0) := by
    have hlast := s.heap.heapEnd.toNat_lt
    have hfirst : (s.heap.heapStart + heapBlockSize).toNat = s.heap.heapStart.toNat + 48 :=
      toNat_add_of_lt (show s.heap.heapStart.toNat + 48 < 2 ^ 64 by omega)
    rw [UInt64.lt_iff_toNat_lt, ge_iff_le, UInt64.le_iff_toNat_le, hfirst, hvalue]
    have hmask : (x.pointer &&& 0xF).toNat = 0 := by
      rw [toNat_and (show (0xF : UInt64).toNat = 2 ^ 4 - 1 from rfl), hvalue]
      omega
    have hbits : x.pointer &&& 0xF = 0 := UInt64.toNat_inj.1 hmask
    rintro (hlow | hhigh | hodd)
    · omega
    · omega
    · exact hodd hbits
  have hused : block.size ≤ s.heap.usedSize := by
    rw [UInt64.le_iff_toNat_le, h.used, hsplit]
    simp [hfree]
    omega
  refine ⟨pre, block, post, hsplit, hfree, hpayload, ?_⟩
  rw [kfree, if_neg hzero, if_neg hchecks, hfind]
  simp only [hfree, Bool.false_eq_true, if_false, if_pos hused]
  rw [hsplit, releaseBlock_append hpre hpayload]

theorem free (ptr : UInt64) : HeapInvariant init (s.step (.free ptr)) := by
  by_cases hlive : ∀ x ∈ s.live, x.pointer ≠ ptr
  · have hfilter : s.live.filter (fun x => x.pointer ≠ ptr) = s.live :=
      filter_eq_self.2 (by simpa using hlive)
    rw [HeapState.step, h.kfree_of_not_live hlive, hfilter]
    exact h
  · push Not at hlive
    obtain ⟨x, hx, rfl⟩ := hlive
    obtain ⟨pre, block, post, hsplit, hfree, hpayload, heq⟩ := h.kfree_of_live hx
    rw [HeapState.step, heq]
    have hmem : block ∈ s.heap.blocks := by simp [hsplit]
    have hlast := s.heap.heapEnd.toNat_lt
    have htiles := h.tiles
    rw [hsplit] at htiles
    -- first the block is released, then free neighbours are merged
    have hmerge : Coalesces (pre ++ { block with isFree := true } :: post)
        (mergePass (pre ++ mergeNext { block with isFree := true } post)) :=
      ((coalesces_mergeNext (b := { block with isFree := true }) rfl post).append_left
        pre).trans (coalesces_mergePass _)
    have hallocated : ∀ b, b ∈ allocated (pre ++ { block with isFree := true } :: post) ↔
        b ∈ allocated s.heap.blocks ∧ b.payload ≠ x.pointer := by
      intro b
      rw [hsplit, ← hpayload, htiles.mem_release]
      exact and_congr_right fun hb => not_congr
        ⟨congrArg HeapBlock.payload,
          h.eq_of_payload (by simpa [hsplit] using (mem_allocated.1 hb).1)
          hmem⟩
    have hsize : allocatedSize s.heap.blocks =
        allocatedSize (pre ++ { block with isFree := true } :: post) + block.size.toNat := by
      rw [hsplit]
      simp [hfree]
      omega
    exact
      { totalSize_eq := h.totalSize_eq
        heapStart_eq := h.heapStart_eq
        heapEnd_eq := h.heapEnd_eq
        total := h.total
        tiles := hmerge.tiles hlast htiles.release
        aligned := by
          intro b hb
          obtain ⟨c, hc, hcb⟩ := hmerge.address b hb
          have hold : ∃ d ∈ s.heap.blocks, d.address = c.address := by
            rw [hsplit]
            rcases mem_append.1 hc with hc | hc
            · exact ⟨c, by simp [hc], rfl⟩
            · rcases mem_cons.1 hc with rfl | hc
              · exact ⟨block, by simp, rfl⟩
              · exact ⟨c, by simp [hc], rfl⟩
          obtain ⟨d, hd, hdc⟩ := hold
          rw [← hcb, ← hdc]
          exact h.aligned d hd
        isChain := isChain_mergePass _
        used := by
          have hle : block.size ≤ s.heap.usedSize :=
            UInt64.le_iff_toNat_le.2 (by rw [h.used]; omega)
          have hsub := UInt64.toNat_sub_of_le _ _ hle
          rw [h.used, hsize, Nat.add_sub_cancel, ← hmerge.allocatedSize_eq] at hsub
          exact hsub
        held := by
          intro y hy
          obtain ⟨hy, hne⟩ := mem_filter.1 hy
          obtain ⟨b, hb, hby, hle⟩ := h.held y hy
          rw [hmerge.allocated_eq]
          exact ⟨b, (hallocated b).2 ⟨hb, by rw [hby]; simpa using hne⟩, hby, hle⟩
        known := by
          intro b hb
          rw [hmerge.allocated_eq] at hb
          obtain ⟨hb, hne⟩ := (hallocated b).1 hb
          obtain ⟨y, hy, hyb⟩ := h.known b hb
          exact ⟨y, mem_filter.2 ⟨hy, by simpa [hyb] using hne⟩, hyb⟩
        requested := fun y hy => h.requested y (mem_of_mem_filter hy)
        distinct := h.distinct.filter _ }

theorem step (call : HeapCall) : HeapInvariant init (s.step call) := by
  cases call with
  | malloc size => exact h.malloc size
  | free ptr => exact h.free ptr

theorem run (calls : List HeapCall) : HeapInvariant init (s.run calls) := by
  induction calls generalizing s with
  | nil => exact h
  | cons call calls ih => exact ih (h.step call)

/-- Two allocations that are live at the same time have different blocks. -/
theorem disjoint : s.live.Pairwise fun x y => ∀ address, ¬(x.Holds address ∧ y.Holds address) := by
  refine h.distinct.imp_of_mem fun {x y} hx hy hne address hboth => ?_
  obtain ⟨b, hb, hbx, hxb⟩ := h.held x hx
  obtain ⟨c, hc, hcy, hyc⟩ := h.held y hy
  have hbmem := (mem_allocated.1 hb).1
  have hcmem := (mem_allocated.1 hc).1
  have hbc : b ≠ c := fun heq => hne (by rw [← hbx, ← hcy, heq])
  have hbvalue := h.payload_toNat hbmem
  have hcvalue := h.payload_toNat hcmem
  rw [hbx] at hbvalue
  rw [hcy] at hcvalue
  have hbsize := UInt64.le_iff_toNat_le.1 hxb
  have hcsize := UInt64.le_iff_toNat_le.1 hyc
  obtain ⟨⟨hxlow, hxhigh⟩, hylow, hyhigh⟩ := hboth
  rcases h.tiles.apart hbmem hcmem hbc with happart | happart <;> omega

/-- With no live allocation, the heap is the one that `heap_init` made. -/
theorem heap_eq_init (hinit : HeapInvariant init ⟨init, []⟩)
    (hlive : s.live = []) : s.heap = init := by
  have none_allocated {s : HeapState} (h : HeapInvariant init s) (hlive : s.live = []) :
      allocated s.heap.blocks = [] := by
    refine eq_nil_iff_forall_not_mem.2 fun b hb => ?_
    obtain ⟨x, hx, -⟩ := h.known b hb
    simp [hlive] at hx
  have used_zero {s : HeapState} (h : HeapInvariant init s) (hlive : s.live = []) :
      s.heap.usedSize = 0 := by
    refine UInt64.toNat_inj.1 ?_
    rw [h.used, allocatedSize, none_allocated h hlive]
    rfl
  have htiles := h.tiles
  rw [h.heapStart_eq, h.heapEnd_eq] at htiles
  ext1
  · exact eq_of_all_free htiles hinit.tiles (none_allocated h hlive) (none_allocated hinit rfl)
      h.isChain hinit.isChain
  · exact h.totalSize_eq
  · exact (used_zero h hlive).trans (used_zero hinit rfl).symm
  · exact h.heapStart_eq
  · exact h.heapEnd_eq

end

end HeapInvariant

/-- What is asked of the heap after the calls; `init` is the heap that `heap_init` made. -/
structure HeapIntegrity (init : Heap) (s : HeapState) : Prop where
  bounds : s.heap.heapStart = init.heapStart ∧ s.heap.heapEnd = init.heapEnd ∧
    s.heap.totalSize = init.totalSize
  tiles : Tiles s.heap.heapStart.toNat s.heap.blocks s.heap.heapEnd.toNat
  ordered : s.heap.blocks.Pairwise fun b c => b.address < c.address
  payload_aligned : ∀ b ∈ s.heap.blocks, b.payload.toNat % 16 = 0
  /-- The payload of a live allocation is that of an allocated block, and large enough. -/
  live_fits : ∀ x ∈ s.live, ∃ b ∈ s.heap.blocks, b.isFree = false ∧ b.payload = x.pointer ∧
    x.requested ≤ b.size
  live_disjoint : s.live.Pairwise fun x y => ∀ address, ¬(x.Holds address ∧ y.Holds address)
  not_adjacent_free : s.heap.blocks.IsChain NotBothFree
  used : s.heap.heapUsedSpace.toNat = allocatedSize s.heap.blocks
  accounting : s.heap.heapUsedSpace.toNat + s.heap.heapFreeSpace.toNat +
    heapBlockSize.toNat * s.heap.blocks.length = s.heap.totalSize.toNat
  kmalloc_null : ∀ size, (s.heap.kmalloc size).1 = none ↔ size = 0 ∨ 2 ^ 64 ≤ size.toNat + 15 ∨
    ∀ b ∈ s.heap.blocks, b.isFree = true → b.size.toNat < (size.toNat + 15) / 16 * 16
  /-- Neither does the call that finds no room change anything. -/
  kmalloc_null_heap : ∀ size, (s.heap.kmalloc size).1 = none → (s.heap.kmalloc size).2 = s.heap
  kfree_invalid : ∀ ptr, (∀ x ∈ s.live, x.pointer ≠ ptr) → s.heap.kfree ptr = s.heap
  all_freed : s.live = [] → s.heap = init

/-- The heap after every sequence of calls, whatever the sizes and the pointers are. -/
theorem heap_integrity (region : HeapRegion) (calls : List HeapCall) :
    HeapIntegrity (heapInit region.start region.size) ((HeapState.init region).run calls) := by
  have hinit := heapInvariant_init region
  have h := hinit.run calls
  generalize (HeapState.init region).run calls = s at h ⊢
  exact
    { bounds := ⟨h.heapStart_eq, h.heapEnd_eq, h.totalSize_eq⟩
      tiles := h.tiles
      ordered := h.tiles.pairwise.imp fun hbc => UInt64.lt_iff_toNat_lt.2 (by omega)
      payload_aligned := fun b hb => by
        have := h.aligned b hb
        rw [h.payload_toNat hb]
        omega
      live_fits := fun x hx => by
        obtain ⟨b, hb, hbx⟩ := h.held x hx
        exact ⟨b, (mem_allocated.1 hb).1, (mem_allocated.1 hb).2, hbx⟩
      live_disjoint := h.disjoint
      not_adjacent_free := h.isChain
      used := h.used
      accounting := by
        have hsum := h.tiles.sum
        have hall := h.total
        have hlast := s.heap.heapEnd.toNat_lt
        have hfree : s.heap.heapFreeSpace.toNat = freeSize s.heap.blocks := by
          have := foldl_free s.heap.blocks 0 (by show 0 + _ < _; omega)
          rw [heapFreeSpace, this]
          exact Nat.zero_add _
        have hused : s.heap.heapUsedSpace.toNat = allocatedSize s.heap.blocks := h.used
        show _ + _ + 48 * _ = _
        omega
      kmalloc_null := kmalloc_eq_none_iff s.heap
      kmalloc_null_heap := fun size => kmalloc_of_none
      kfree_invalid := fun ptr => h.kfree_of_not_live
      all_freed := h.heap_eq_init hinit }

/-- A region of a page. -/
def sampleRegion : HeapRegion := ⟨0x1008, 0x1000, by decide, by decide⟩

/-- Two blocks are taken, and the first of them is freed. -/
def sampleHeapCalls : List HeapCall := [.malloc 100, .malloc 5, .free 0x1040]

theorem heap_integrity_sampleRegion :
    ((HeapState.init sampleRegion).run sampleHeapCalls).live = [⟨0x10E0, 5⟩] ∧
      ((HeapState.init sampleRegion).run sampleHeapCalls).heap.blocks.map (·.isFree) =
        [true, false, true] ∧
      HeapIntegrity (heapInit 0x1008 0x1000) ((HeapState.init sampleRegion).run sampleHeapCalls) :=
  ⟨by decide +kernel, by decide +kernel, heap_integrity sampleRegion sampleHeapCalls⟩

end Nostalux.Memory
