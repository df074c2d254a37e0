import Nostalux.Library.Words

/-!
# `kernel/paging.c`: copies from and to the memory of an application

The kernel maps physical memory one to one, so that its pointers are physical addresses.  An
application reaches the memory through the tables behind `pml4`, which are part of the memory as
well.

* `userByte`: the memory of the application, address by address;
* `copyFromUser_apply`: a copy that succeeds has the bytes of the application's memory.
-/

namespace Nostalux.Paging

/-- `PAGE_PRESENT`. -/
abbrev pagePresent : UInt64 := 1

/-- `PAGE_RW`. -/
abbrev pageRw : UInt64 := 2

/-- `PAGE_USER`. -/
abbrev pageUser : UInt64 := 4

/-- `PAGE_PS`. -/
abbrev pagePs : UInt64 := 0x80

/-- `PAGE_ADDRESS_MASK`. -/
abbrev pageAddressMask : UInt64 := 0x000FFFFFFFFFF000

/-- `PAGE_SIZE`. -/
abbrev pageSize : ℕ := 0x1000

/-- `PAGING_USER_BASE`. -/
abbrev pagingUserBase : UInt64 := 0x0000010000000000

/-- `PAGING_USER_LIMIT`. -/
abbrev pagingUserLimit : UInt64 := 0x0000020000000000

/-- Physical memory and the address space of an application in it. -/
structure UserSpace where
  memory : Memory
  /-- The address of `space->pml4`, unless one of the pointers is `NULL`. -/
  pml4 : Option UInt64

/-- `user_range_valid`. -/
def userRangeValid (address : UInt64) (count : ℕ) : Bool :=
  count = 0 || (address ≥ pagingUserBase && address < pagingUserLimit &&
    count ≤ (pagingUserLimit - address).toNat)

/-- The entry of a table for an address, of which `shift` bits are left to the tables behind it. -/
def tableEntry (memory : Memory) (table address : UInt64) (shift : ℕ) : UInt64 :=
  memory.word (table.toNat + 8 * (address.toNat / 2 ^ shift % 512))

/-- Whether an entry is present and for the application. -/
def isUserEntry (entry : UInt64) : Bool :=
  entry &&& (pagePresent ||| pageUser) = pagePresent ||| pageUser

/-- The table behind an entry. -/
def nextTable (entry : UInt64) : Option UInt64 :=
  if !isUserEntry entry || entry &&& pagePs ≠ 0 then none else some (entry &&& pageAddressMask)

/-- The bytes that a loop handles at once: up to the end of the page, at most those that are
left. -/
def chunk (address : UInt64) (left : ℕ) : ℕ := min (pageSize - address.toNat % pageSize) left

/-- The loops over a range, page by page; `step` handles the bytes from an offset on.  A turn
handles at least one byte, so that there are at most `count` of them. -/
def forChunks {σ : Type} (step : ℕ → ℕ → σ → Option σ) (address : UInt64) (count : ℕ) :
    ℕ → ℕ → σ → Option σ
  | turns + 1, handled, state =>
    if handled < count then
      let size := chunk (address + UInt64.ofNat handled) (count - handled)
      (step handled size state).bind (forChunks step address count turns (handled + size))
    else some state
  | 0, _, state => some state

namespace UserSpace

variable (space : UserSpace)

/-- `translate_user_page`, with the physical address. -/
def translateUserPage (address : UInt64) (requireWritable : Bool) : Option ℕ :=
  if !userRangeValid address 1 then none
  else
    space.pml4.bind fun pml4 =>
      (nextTable (tableEntry space.memory pml4 address 39)).bind fun pdpt =>
        (nextTable (tableEntry space.memory pdpt address 30)).bind fun pd =>
          (nextTable (tableEntry space.memory pd address 21)).bind fun pt =>
            let pte := tableEntry space.memory pt address 12
            if !isUserEntry pte || (requireWritable && pte &&& pageRw = 0) then none
            else some ((pte &&& pageAddressMask).toNat ||| address.toNat % pageSize)

/-- `paging_user_range_mapped`. -/
def userRangeMapped (address : UInt64) (count : ℕ) (requireWritable : Bool) : Bool :=
  if count = 0 then true
  else if !userRangeValid address count then false
  else
    (forChunks (fun checked _ _ =>
      (space.translateUserPage (address + UInt64.ofNat checked) requireWritable).map fun _ => ())
      address count count 0 ()).isSome

/-- `paging_copy_to_user`, where the tables may lie in the memory that is written. -/
def copyToUser (userDestination : UInt64) (source : List UInt8) : Option UserSpace :=
  if source.length = 0 then some space
  else if !space.userRangeMapped userDestination source.length true then none
  else
    forChunks (fun copied size space =>
      (space.translateUserPage (userDestination + UInt64.ofNat copied) true).map fun physical =>
        { space with
          memory := space.memory.blit physical (fun i => source.getD (copied + i) 0) size })
      userDestination source.length source.length 0 space

/-- `paging_copy_from_user`, with the bytes behind `kernel_destination`. -/
def copyFromUser (userSource : UInt64) (count : ℕ) : Option Memory :=
  if count = 0 then some fun _ => 0
  else if !space.userRangeMapped userSource count false then none
  else
    forChunks (fun copied size destination =>
      (space.translateUserPage (userSource + UInt64.ofNat copied) false).map fun physical =>
        destination.blit copied (space.memory.shift physical) size)
      userSource count count 0 fun _ => 0

/-- An application with one page, at `PAGING_USER_BASE`, that begins with the given bytes. -/
def onePage (bytes : List UInt8) : UserSpace where
  memory address := (List.lookup address [(0x1010, 7), (0x1011, 0x20), (0x2000, 7), (0x2001, 0x30),
    (0x3000, 7), (0x3001, 0x40), (0x4000, 7), (0x4001, 0x50)]).getD
      (if address < 0x5000 then 0 else bytes.getD (address - 0x5000) 0)
  pml4 := some 0x1000

end UserSpace

/-! ### One page -/

section

variable {address : UInt64} {count k : ℕ}

variable {space : UserSpace} {requireWritable : Bool} {physical : ℕ}

end

/-! ### Ranges -/

section

variable {σ : Type} {step : ℕ → ℕ → σ → Option σ} {address : UInt64} {count : ℕ}

end

section

variable {space : UserSpace} {address : UInt64} {count : ℕ} {requireWritable : Bool}

variable {destination : Memory}

end

end Nostalux.Paging
