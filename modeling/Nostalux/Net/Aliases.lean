import Nostalux.Net.Labels

/-!
# The alias chain of a DNS answer

`dns_find_address_answer` rescans the whole answer section for every name that it reaches.  What a
record means for a name is its role (`DnsRole`), and a path from name to name along `CNAME` records
is an `AliasChain`.

* `seen_of_dnsScanAnswers`: what one pass finds;
* `alias_chain_followed`: an address or its absence is found at the end of a chain;
* `dnsFollowAliases_of_long`, `dnsFollowAliases_of_two`: chains that are too long, and so cycles,
  are refused, and so is a name with two aliases that is reached.
-/

namespace Nostalux.Net

open BigEndian List DnsScan

/-- A record of the answer section, with its owner. -/
abbrev DnsAnswerRecord := CString × DnsRecordView

/-- The records of the answer section. -/
def dnsAnswers (message : Memory) (messageSize : ℕ) : ℕ → ℕ → Option (List DnsAnswerRecord)
  | 0, _ => some []
  | count + 1, offset =>
    match dnsReadRecord message messageSize offset with
    | none => none
    | some record =>
      match dnsExpandName message messageSize record.ownerOffset with
      | none => none
      | some (owner, _) =>
        (dnsAnswers message messageSize count record.nextOffset).map ((owner, record) :: ·)

/-- What a record means for a name. -/
inductive DnsRole
  /-- It is of another name, class or type. -/
  | other
  | unusable
  | address (ip ttl : UInt32)
  | cname (target : CString) (ttl : UInt32)
  | broken

/-- Whether the record has the class `IN` and is owned by the name, in whatever case. -/
def isOwned (name : CString) (record : DnsAnswerRecord) : Bool :=
  record.2.recordClass = dnsClassIn ∧ dnsNamesEqual record.1 name

/-- Whether the record is a `CNAME` record of the name. -/
def isCname (name : CString) (record : DnsAnswerRecord) : Bool :=
  isOwned name record ∧ record.2.type = dnsTypeCname

/-- The role of a record for a name. -/
def dnsRole (message : Memory) (messageSize : ℕ) (name : CString) (record : DnsAnswerRecord) :
    DnsRole :=
  if !isOwned name record then .other
  else if record.2.type = dnsTypeA then
    if record.2.dataSize ≠ 4 then .broken
    else if !ipv4IsUsableUnicast (u32At message record.2.dataOffset) then .unusable
    else .address (u32At message record.2.dataOffset) record.2.ttlSeconds
  else if record.2.type = dnsTypeCname then
    match dnsExpandName message messageSize record.2.dataOffset with
    | none => .broken
    | some (target, next) =>
      if target.length = 0 ∨ next ≠ record.2.nextOffset then .broken
      else .cname target record.2.ttlSeconds
  else .other

/-- The usable address that a role gives. -/
def DnsRole.toAddress : DnsRole → Option (UInt32 × UInt32)
  | .address ip ttl => some (ip, ttl)
  | _ => none

/-- The alias that a role gives. -/
def DnsRole.toAlias : DnsRole → Option (CString × UInt32)
  | .cname target ttl => some (target, ttl)
  | _ => none

/-- The usable addresses among the roles. -/
def addressesOf (roles : List DnsRole) : List (UInt32 × UInt32) := roles.filterMap DnsRole.toAddress

/-- The aliases among the roles. -/
def aliasesOf (roles : List DnsRole) : List (CString × UInt32) := roles.filterMap DnsRole.toAlias

theorem addressesOf_append (roles : List DnsRole) (role : DnsRole) :
    addressesOf (roles ++ [role]) = addressesOf roles ++ role.toAddress.toList := by
  rw [addressesOf, filterMap_append, ← addressesOf]
  cases role <;> rfl

theorem aliasesOf_append (roles : List DnsRole) (role : DnsRole) :
    aliasesOf (roles ++ [role]) = aliasesOf roles ++ role.toAlias.toList := by
  rw [aliasesOf, filterMap_append, ← aliasesOf]
  cases role <;> rfl

/-- The time to live is the shortest one. -/
def IsLeastTtl (ttl : UInt32) (ttls : List UInt32) : Prop :=
  ttl ∈ ttls ∧ ∀ other ∈ ttls, ttl ≤ other

/-- A pass goes on with a record of this role. -/
def DnsScan.see (scan : DnsScan) : DnsRole → Option DnsScan
  | .other => some scan
  | .broken => none
  | .unusable => if scan.cname.isSome then none else some scan
  | .address ip ttl =>
    if scan.cname.isSome then none
    else
      match scan.address with
      | none => some { scan with address := some (ip, ttl) }
      | some (first, shortest) =>
        some { scan with address := some (first, if ttl < shortest then ttl else shortest) }
  | .cname target ttl =>
    if scan.address.isSome ∨ scan.cname.isSome then none
    else some { scan with cname := some (target, ttl) }

section

variable {message : Memory} {messageSize : ℕ}

theorem dnsScanRecord_eq_see (name owner : CString) (record : DnsRecordView) (scan : DnsScan) :
    dnsScanRecord message messageSize name owner record scan =
      scan.see (dnsRole message messageSize name (owner, record)) := by
  rw [dnsScanRecord, dnsRole]
  by_cases howned : isOwned name (owner, record) = true
  · have hclass : record.recordClass = dnsClassIn := (of_decide_eq_true howned).1
    have hname : dnsNamesEqual owner name = true := (of_decide_eq_true howned).2
    have hskip : ¬(record.recordClass ≠ dnsClassIn ∨ (!dnsNamesEqual owner name) = true) := by
      simp [hclass, hname]
    have howned' : ¬(!isOwned name (owner, record)) = true := by simp [howned]
    rw [if_neg hskip, if_neg howned']
    by_cases ha : record.type = dnsTypeA
    · rw [if_pos ha, if_pos ha]
      by_cases hsize : record.dataSize ≠ 4
      · rw [if_pos (.inl hsize), if_pos hsize]
        rfl
      rw [if_neg hsize]
      by_cases hcname : scan.cname.isSome = true
      · rw [if_pos (.inr hcname)]
        split <;> simp [see, hcname]
      rw [if_neg (by simp [hcname, hsize])]
      by_cases husable : (!ipv4IsUsableUnicast (u32At message record.dataOffset)) = true
      · rw [if_pos husable, if_pos husable]
        simp [see, hcname]
      rw [if_neg husable, if_neg husable]
      simp only [see, hcname]
      cases haddress : scan.address with
      | none => rfl
      | some found =>
        obtain ⟨first, shortest⟩ := found
        by_cases hshorter : record.ttlSeconds < shortest
        · simp [hshorter]
        · simp only [hshorter, if_false, Bool.false_eq_true]
          rw [← haddress]
    · rw [if_neg ha, if_neg ha]
      by_cases hc : record.type = dnsTypeCname
      · rw [if_pos hc, if_pos hc]
        by_cases htwice : scan.address.isSome ∨ scan.cname.isSome
        · rw [if_pos htwice]
          cases dnsExpandName message messageSize record.dataOffset with
          | none => rfl
          | some found =>
            dsimp only
            split
            · rfl
            · exact (if_pos htwice).symm
        · rw [if_neg htwice]
          cases dnsExpandName message messageSize record.dataOffset with
          | none => rfl
          | some found =>
            dsimp only
            split
            · rfl
            · exact (if_neg htwice).symm
      · rw [if_neg hc, if_neg hc]
        rfl
  · have hnot : record.recordClass ≠ dnsClassIn ∨ (!dnsNamesEqual owner name) = true := by
      by_contra h
      push Not at h
      exact howned (decide_eq_true ⟨h.1, by simpa using h.2⟩)
    rw [if_pos hnot, if_pos (by simp [howned])]
    rfl

/-! ### One pass -/

/-- What a pass has found in the records with these roles. -/
structure Seen (roles : List DnsRole) (scan : DnsScan) : Prop where
  sound : .broken ∉ roles
  aliases : aliasesOf roles = scan.cname.toList
  none_found : scan.address = none → addressesOf roles = []
  found : ∀ ip ttl, scan.address = some (ip, ttl) →
    (addressesOf roles).head?.map Prod.fst = some ip ∧
      IsLeastTtl ttl ((addressesOf roles).map Prod.snd)
  exclusive : scan.cname.isSome = true → addressesOf roles = []

theorem seen_nil : Seen [] default where
  sound := not_mem_nil
  aliases := rfl
  none_found _ := rfl
  found _ _ h := nomatch h
  exclusive _ := rfl

variable {ttls : List UInt32}

theorem IsLeastTtl.append {ttl new : UInt32} (h : IsLeastTtl ttl ttls) :
    IsLeastTtl (if new < ttl then new else ttl) (ttls ++ [new]) := by
  obtain ⟨hmem, hle⟩ := h
  by_cases hnew : new < ttl
  · rw [if_pos hnew]
    refine ⟨by simp, fun other hother => ?_⟩
    rcases mem_append.1 hother with hother | hother
    · exact UInt32.le_trans (UInt32.le_of_lt hnew) (hle other hother)
    · rw [mem_singleton.1 hother]
      exact UInt32.le_refl _
  · rw [if_neg hnew]
    refine ⟨mem_append_left _ hmem, fun other hother => ?_⟩
    rcases mem_append.1 hother with hother | hother
    · exact hle other hother
    · rw [mem_singleton.1 hother]
      exact UInt32.not_lt.1 hnew

variable {roles : List DnsRole}

/-- A role that gives nothing changes nothing. -/
theorem Seen.skip {scan : DnsScan} {role : DnsRole} (h : Seen roles scan)
    (hbroken : role ≠ .broken) (haddress : role.toAddress = none) (halias : role.toAlias = none) :
    Seen (roles ++ [role]) scan := by
  have haddresses : addressesOf (roles ++ [role]) = addressesOf roles := by
    simp [addressesOf_append, haddress]
  have haliases : aliasesOf (roles ++ [role]) = aliasesOf roles := by
    simp [aliasesOf_append, halias]
  exact ⟨by simpa using ⟨h.sound, hbroken.symm⟩, haliases ▸ h.aliases, haddresses ▸ h.none_found,
    haddresses ▸ h.found, haddresses ▸ h.exclusive⟩

theorem Seen.see {scan scan' : DnsScan} {role : DnsRole} (h : Seen roles scan)
    (hsee : scan.see role = some scan') : Seen (roles ++ [role]) scan' := by
  cases role with
  | other =>
    cases hsee
    exact h.skip (by simp) rfl rfl
  | broken => cases hsee
  | unusable =>
    simp only [DnsScan.see] at hsee
    split at hsee
    · cases hsee
    · cases hsee
      exact h.skip (by simp) rfl rfl
  | address ip ttl =>
    simp only [DnsScan.see] at hsee
    split at hsee
    · cases hsee
    rename_i hcname
    have haddresses : addressesOf (roles ++ [.address ip ttl]) = addressesOf roles ++ [(ip, ttl)] :=
      addressesOf_append roles _
    have haliases : aliasesOf (roles ++ [.address ip ttl]) = aliasesOf roles := by
      simp [aliasesOf_append, DnsRole.toAlias]
    split at hsee
    · rename_i hnone
      cases hsee
      refine ⟨by simpa using h.sound, haliases ▸ h.aliases, nofun, ?_,
        fun hsome => absurd hsome hcname⟩
      intro ip' ttl' hfound
      cases hfound
      rw [haddresses, h.none_found hnone]
      exact ⟨rfl, by simp, by simp⟩
    · rename_i first shortest hsome
      cases hsee
      obtain ⟨hhead, hleast⟩ := h.found first shortest hsome
      refine ⟨by simpa using h.sound, haliases ▸ h.aliases, nofun, ?_,
        fun hsome => absurd hsome hcname⟩
      intro ip' ttl' hfound
      cases hfound
      rw [haddresses, map_append]
      refine ⟨?_, hleast.append⟩
      cases hlist : addressesOf roles with
      | nil => rw [hlist] at hhead; cases hhead
      | cons found rest => rw [hlist] at hhead; exact hhead
  | cname target ttl =>
    simp only [DnsScan.see] at hsee
    split at hsee
    · cases hsee
    rename_i hfree
    push Not at hfree
    have hnone : scan.address = none := by simpa using hfree.1
    have hcname : scan.cname = none := by simpa using hfree.2
    cases hsee
    have haddresses : addressesOf (roles ++ [.cname target ttl]) = addressesOf roles := by
      simp [addressesOf_append, DnsRole.toAddress]
    have haliases := h.aliases
    rw [hcname] at haliases
    refine ⟨by simpa using h.sound, by rw [aliasesOf_append, haliases]; rfl,
      haddresses ▸ h.none_found, ?_, fun _ => haddresses ▸ h.none_found hnone⟩
    intro ip ttl' hfound
    rw [hnone] at hfound
    cases hfound

variable {name : CString}

theorem seen_of_dnsScanAnswers {count offset : ℕ}
    {answers : List DnsAnswerRecord} {scan result : DnsScan}
    (hanswers : dnsAnswers message messageSize count offset = some answers)
    (hscan : dnsScanAnswers message messageSize name count offset scan = some result)
    (hseen : Seen roles scan) :
    Seen (roles ++ answers.map (dnsRole message messageSize name)) result := by
  induction count generalizing offset answers roles scan with
  | zero =>
    cases hanswers
    cases hscan
    simpa using hseen
  | succ count ih =>
    rw [dnsAnswers] at hanswers
    rw [dnsScanAnswers] at hscan
    cases hread : dnsReadRecord message messageSize offset with
    | none => rw [hread] at hanswers; cases hanswers
    | some record =>
      rw [hread] at hanswers hscan
      dsimp only at hanswers hscan
      cases howner : dnsExpandName message messageSize record.ownerOffset with
      | none => rw [howner] at hanswers; cases hanswers
      | some found =>
        rw [howner] at hanswers hscan
        dsimp only at hanswers hscan
        obtain ⟨rest, hrest, rfl⟩ := Option.map_eq_some_iff.1 hanswers
        rw [dnsScanRecord_eq_see] at hscan
        split at hscan
        · cases hscan
        · rename_i scan' hsee
          have := ih hrest hscan (hseen.see hsee)
          simpa using this

/-- The answer section that was read once can be read again, with the names of the owners. -/
theorem exists_dnsAnswers {count offset last : ℕ}
    (h : dnsSkipRecords message messageSize count offset = some last) :
    ∃ answers, dnsAnswers message messageSize count offset = some answers := by
  induction count generalizing offset with
  | zero => exact ⟨[], rfl⟩
  | succ count ih =>
    rw [dnsSkipRecords] at h
    cases hread : dnsReadRecord message messageSize offset with
    | none => rw [hread] at h; cases h
    | some record =>
      rw [hread] at h
      obtain ⟨answers, hanswers⟩ := ih h
      have howner : ∃ owner next, dnsExpandName message messageSize record.ownerOffset =
          some (owner, next) := by
        rw [dnsReadRecord] at hread
        split at hread
        · cases hread
        cases hskip : dnsSkipName message messageSize offset with
        | none => rw [hskip] at hread; cases hread
        | some cursor =>
          rw [hskip] at hread
          dsimp only at hread
          split at hread
          · cases hread
          split at hread
          · cases hread
          cases hread
          rw [dnsSkipName] at hskip
          obtain ⟨⟨owner, next⟩, hexpand, -⟩ := Option.map_eq_some_iff.1 hskip
          exact ⟨owner, next, hexpand⟩
      obtain ⟨owner, next, hexpand⟩ := howner
      refine ⟨(owner, record) :: answers, ?_⟩
      rw [dnsAnswers, hread]
      dsimp only
      rw [hexpand]
      rw [hanswers]
      rfl

/-! ### Chains -/

/-- A path along `CNAME` records, with their times to live. -/
inductive AliasChain (message : Memory) (messageSize : ℕ) (answers : List DnsAnswerRecord) :
    CString → List UInt32 → CString → Prop
  | nil (name : CString) : AliasChain message messageSize answers name [] name
  | cons {name target terminal : CString} {ttl : UInt32} {ttls : List UInt32}
      {record : DnsAnswerRecord} (mem : record ∈ answers)
      (role : dnsRole message messageSize name record = .cname target ttl)
      (rest : AliasChain message messageSize answers target ttls terminal) :
      AliasChain message messageSize answers name (ttl :: ttls) terminal

/-- The roles of all records of the answer section for a name. -/
def rolesFor (message : Memory) (messageSize : ℕ) (answers : List DnsAnswerRecord)
    (name : CString) :
    List DnsRole := answers.map (dnsRole message messageSize name)

variable {answers : List DnsAnswerRecord} {count offset : ℕ}

theorem AliasChain.append {name middle terminal : CString} {ttls ttls' : List UInt32}
    (h : AliasChain message messageSize answers name ttls middle)
    (h' : AliasChain message messageSize answers middle ttls' terminal) :
    AliasChain message messageSize answers name (ttls ++ ttls') terminal := by
  induction h with
  | nil => exact h'
  | cons mem role rest ih => exact .cons mem role (ih h')

theorem dnsRole_congr {name name' : CString} (h : dnsNamesEqual name name' = true)
    (record : DnsAnswerRecord) :
    dnsRole message messageSize name record = dnsRole message messageSize name' record := by
  have howned : isOwned name record = isOwned name' record := by
    rw [dnsNamesEqual, dnsTextsEqual_iff] at h
    refine decide_eq_decide.2 (and_congr_right fun _ => ?_)
    rw [dnsNamesEqual, dnsNamesEqual, dnsTextsEqual_iff, dnsTextsEqual_iff, h]
  rw [dnsRole, dnsRole, howned]

/-- A chain does not depend on the case of the name that it starts with. -/
theorem AliasChain.congr {name name' terminal : CString}
    (hname : dnsNamesEqual name name' = true) (hne : ttls ≠ [])
    (h : AliasChain message messageSize answers name ttls terminal) :
    AliasChain message messageSize answers name' ttls terminal := by
  cases h with
  | nil => exact absurd rfl hne
  | cons mem role rest => exact .cons mem (by rw [← dnsRole_congr hname, role]) rest

/-- A cycle can be followed as long as one likes. -/
theorem exists_long_chain {name back : CString} (hne : ttls ≠ [])
    (h : AliasChain message messageSize answers name ttls back)
    (hback : dnsNamesEqual back name = true) (length : ℕ) :
    ∃ more terminal, length ≤ more.length ∧
      AliasChain message messageSize answers name more terminal := by
  have hback' : dnsNamesEqual name back = true := by
    rw [dnsNamesEqual, dnsTextsEqual_iff] at hback ⊢
    exact hback.symm
  induction length with
  | zero => exact ⟨ttls, back, Nat.zero_le _, h⟩
  | succ length ih =>
    obtain ⟨more, terminal, hlength, hmore⟩ := ih
    have hpositive := length_pos_iff.2 hne
    by_cases hempty : more = []
    · refine ⟨ttls, back, ?_, h⟩
      rw [hempty, length_nil] at hlength
      omega
    · exact ⟨ttls ++ more, terminal, by rw [length_append]; omega,
        h.append (hmore.congr hback' hempty)⟩

theorem dnsRole_of_isCname (message : Memory) (messageSize : ℕ)
    {record : DnsAnswerRecord} (h : isCname name record = true) :
    dnsRole message messageSize name record = .broken ∨
      ∃ target ttl, dnsRole message messageSize name record = .cname target ttl := by
  obtain ⟨howned, htype⟩ := of_decide_eq_true h
  have hother : record.2.type ≠ dnsTypeA := by
    rw [htype]
    decide
  rw [dnsRole, if_neg (by simp [howned]), if_neg hother, if_pos htype]
  split
  · exact .inl rfl
  · split
    · exact .inl rfl
    · exact .inr ⟨_, _, rfl⟩

/-- Without broken records the `CNAME` records are the aliases. -/
theorem countP_isCname (h : .broken ∉ rolesFor message messageSize answers name) :
    answers.countP (isCname name) ≤
      (aliasesOf (rolesFor message messageSize answers name)).length := by
  induction answers with
  | nil => simp
  | cons record answers ih =>
    simp only [rolesFor, map_cons, mem_cons, not_or] at h
    have hrest := ih h.2
    rw [countP_cons, rolesFor, map_cons, aliasesOf]
    by_cases hcname : isCname name record = true
    · rcases dnsRole_of_isCname message messageSize hcname with hrole | ⟨target, ttl, hrole⟩
      · exact absurd hrole.symm h.1
      · rw [if_pos hcname, filterMap_cons_some (by rw [hrole]; rfl), length_cons]
        exact Nat.succ_le_succ hrest
    · rw [if_neg hcname]
      refine hrest.trans ?_
      rw [aliasesOf, rolesFor]
      exact Sublist.length_le (Sublist.filterMap _ (sublist_cons_self _ _))

theorem Seen.cname_eq {result : DnsScan} (h : Seen roles result)
    {target : CString} {ttl : UInt32} (hmem : .cname target ttl ∈ roles) :
    result = ⟨none, some (target, ttl)⟩ := by
  have halias : (target, ttl) ∈ aliasesOf roles := mem_filterMap.2 ⟨_, hmem, rfl⟩
  rw [h.aliases, Option.mem_toList] at halias
  have hempty := h.exclusive (by rw [halias]; rfl)
  obtain ⟨address, cname⟩ := result
  cases address with
  | none => rw [show cname = some (target, ttl) from halias]
  | some found =>
    obtain ⟨hhead, -⟩ := h.found found.1 found.2 rfl
    rw [hempty] at hhead
    cases hhead

/-! ### Following the chain -/

section

variable (hanswers : dnsAnswers message messageSize count offset = some answers)

include hanswers

/-- The next name of a chain is reached, or the answer is refused. -/
theorem dnsFollowAliases_cons {name target : CString} {ttl : UInt32} {record : DnsAnswerRecord}
    (mem : record ∈ answers) (role : dnsRole message messageSize name record = .cname target ttl)
    (passes : ℕ) (effectiveTtl : UInt32) :
    dnsFollowAliases message messageSize offset count (passes + 1) name effectiveTtl = .malformed ∨
      dnsFollowAliases message messageSize offset count (passes + 1) name effectiveTtl =
        dnsFollowAliases message messageSize offset count passes target
          (dnsShorterTtl effectiveTtl ttl) := by
  rw [dnsFollowAliases]
  cases hscan : dnsScanAnswers message messageSize name count offset default with
  | none => exact .inl rfl
  | some result =>
    have hseen := seen_of_dnsScanAnswers hanswers hscan seen_nil
    rw [nil_append] at hseen
    rw [hseen.cname_eq (mem_map.2 ⟨record, mem, role⟩)]
    dsimp only
    split
    · exact .inl rfl
    · exact .inr rfl

theorem dnsFollowAliases_of_long {name terminal : CString} {ttls : List UInt32}
    (chain : AliasChain message messageSize answers name ttls terminal) {passes : ℕ}
    (hlong : passes ≤ ttls.length) (effectiveTtl : UInt32) :
    dnsFollowAliases message messageSize offset count passes name effectiveTtl = .malformed := by
  induction chain generalizing passes effectiveTtl with
  | nil =>
    obtain rfl : passes = 0 := Nat.le_zero.1 hlong
    rfl
  | cons mem role rest ih =>
    cases passes with
    | zero => rfl
    | succ passes =>
      rcases dnsFollowAliases_cons hanswers mem role passes effectiveTtl with h | h
      · exact h
      · rw [h, ih (Nat.le_of_succ_le_succ hlong)]

theorem dnsFollowAliases_of_two {name terminal : CString} {ttls : List UInt32}
    (chain : AliasChain message messageSize answers name ttls terminal)
    (htwo : 2 ≤ answers.countP (isCname terminal)) (passes : ℕ) (effectiveTtl : UInt32) :
    dnsFollowAliases message messageSize offset count passes name effectiveTtl = .malformed := by
  induction chain generalizing passes effectiveTtl with
  | nil name =>
    cases passes with
    | zero => rfl
    | succ passes =>
      rw [dnsFollowAliases]
      cases hscan : dnsScanAnswers message messageSize name count offset default with
      | none => rfl
      | some result =>
        have hseen := seen_of_dnsScanAnswers hanswers hscan seen_nil
        rw [nil_append] at hseen
        have hcount := countP_isCname hseen.sound
        rw [rolesFor, hseen.aliases] at hcount
        have hone : result.cname.toList.length ≤ 1 := by cases result.cname <;> simp
        omega
  | cons mem role rest ih =>
    cases passes with
    | zero => rfl
    | succ passes =>
      rcases dnsFollowAliases_cons hanswers mem role passes effectiveTtl with h | h
      · exact h
      · rw [h, ih htwo]

end

theorem isLeastTtl_dnsShorterTtl {effectiveTtl ttl shortest : UInt32} {ttls ttls' : List UInt32}
    (h : IsLeastTtl shortest (dnsShorterTtl effectiveTtl ttl :: ttls))
    (hleast : IsLeastTtl ttl ttls') : IsLeastTtl shortest (effectiveTtl :: (ttls' ++ ttls)) := by
  obtain ⟨hmem, hle⟩ := h
  have hcases : dnsShorterTtl effectiveTtl ttl = ttl ∧ ttl ≤ effectiveTtl ∨
      dnsShorterTtl effectiveTtl ttl = effectiveTtl ∧ effectiveTtl ≤ ttl := by
    rw [dnsShorterTtl]
    split
    · rename_i hshort
      refine .inl ⟨rfl, ?_⟩
      rcases hshort with rfl | hlt
      · exact UInt32.le_iff_toNat_le.2 (Nat.le_of_lt_succ ttl.toNat_lt)
      · exact UInt32.le_of_lt hlt
    · rename_i hlong
      push Not at hlong
      exact .inr ⟨rfl, UInt32.not_lt.1 hlong.2⟩
  have hshort := hle _ mem_cons_self
  constructor
  · rcases mem_cons.1 hmem with rfl | hmem
    · rcases hcases with ⟨heq, -⟩ | ⟨heq, -⟩
      · rw [heq]
        exact mem_cons_of_mem _ (mem_append_left _ hleast.1)
      · rw [heq]
        exact mem_cons_self
    · exact mem_cons_of_mem _ (mem_append_right _ hmem)
  · intro other hother
    rcases mem_cons.1 hother with rfl | hother
    · rcases hcases with ⟨heq, hother⟩ | ⟨heq, -⟩
      · exact UInt32.le_trans (heq ▸ hshort) hother
      · exact heq ▸ hshort
    rcases mem_append.1 hother with hother | hother
    · refine UInt32.le_trans ?_ (hleast.2 other hother)
      rcases hcases with ⟨heq, -⟩ | ⟨heq, httl⟩
      · exact heq ▸ hshort
      · exact UInt32.le_trans (heq ▸ hshort) httl
    · exact hle other (mem_cons_of_mem _ hother)

/-- The answer lies at the end of a chain from the name. -/
def EndsChain (message : Memory) (messageSize : ℕ) (answers : List DnsAnswerRecord) (name : CString)
    (effectiveTtl : UInt32) (passes : ℕ) : DnsAnswer → Prop
  | .address ip ttl terminal => ∃ ttls, AliasChain message messageSize answers name ttls terminal ∧
      ttls.length < passes ∧
      (addressesOf (rolesFor message messageSize answers terminal)).head?.map Prod.fst = some ip ∧
      IsLeastTtl ttl (effectiveTtl :: (ttls ++
        (addressesOf (rolesFor message messageSize answers terminal)).map Prod.snd))
  | .notFound ttl terminal => ∃ ttls, AliasChain message messageSize answers name ttls terminal ∧
      ttls.length < passes ∧ answers.countP (isCname terminal) = 0 ∧
      addressesOf (rolesFor message messageSize answers terminal) = [] ∧
      IsLeastTtl ttl (effectiveTtl :: ttls)
  | .malformed => True

theorem endsChain_dnsFollowAliases
    (hanswers : dnsAnswers message messageSize count offset = some answers) (passes : ℕ)
    (name : CString) (effectiveTtl : UInt32) :
    EndsChain message messageSize answers name effectiveTtl passes
      (dnsFollowAliases message messageSize offset count passes name effectiveTtl) := by
  induction passes generalizing name effectiveTtl with
  | zero => exact trivial
  | succ passes ih =>
    rw [dnsFollowAliases]
    cases hscan : dnsScanAnswers message messageSize name count offset default with
    | none => exact trivial
    | some result =>
      have hseen := seen_of_dnsScanAnswers hanswers hscan seen_nil
      rw [nil_append] at hseen
      obtain ⟨address, cname⟩ := result
      cases address with
      | some found =>
        obtain ⟨ip, ttl⟩ := found
        obtain ⟨hhead, hleast⟩ := hseen.found ip ttl rfl
        refine ⟨[], .nil name, Nat.succ_pos _, hhead, ?_⟩
        have hshortest : IsLeastTtl (dnsShorterTtl effectiveTtl ttl)
            [dnsShorterTtl effectiveTtl ttl] := ⟨mem_singleton_self _, by simp⟩
        simpa [rolesFor] using isLeastTtl_dnsShorterTtl hshortest hleast
      | none =>
        cases cname with
        | none =>
          have hcount := countP_isCname hseen.sound
          rw [rolesFor, hseen.aliases] at hcount
          exact ⟨[], .nil name, Nat.succ_pos _, Nat.le_zero.1 hcount, hseen.none_found rfl,
            mem_singleton_self _, by simp⟩
        | some found =>
          -- the alias found by this pass goes before the chain of the passes that are left
          obtain ⟨target, ttl⟩ := found
          dsimp only
          split
          · exact trivial
          obtain ⟨record, hmem, hrole⟩ : ∃ record ∈ answers,
              dnsRole message messageSize name record = .cname target ttl := by
            have halias :
                (target, ttl) ∈ aliasesOf (answers.map (dnsRole message messageSize name)) := by
              rw [hseen.aliases]
              simp
            obtain ⟨role, hrole, heq⟩ := mem_filterMap.1 halias
            obtain ⟨record, hmem, rfl⟩ := mem_map.1 hrole
            refine ⟨record, hmem, ?_⟩
            cases hcase : dnsRole message messageSize name record with
            | cname target' ttl' => rw [hcase] at heq; cases heq; rfl
            | _ => rw [hcase] at heq; cases heq
          have hleast : IsLeastTtl ttl [ttl] := ⟨mem_singleton_self _, by simp⟩
          have hrest := ih target (dnsShorterTtl effectiveTtl ttl)
          revert hrest
          cases dnsFollowAliases message messageSize offset count passes target
            (dnsShorterTtl effectiveTtl ttl) with
          | malformed => exact id
          | address ip shortest terminal =>
            rintro ⟨ttls, hchain, hlength, hhead, hshortest⟩
            have hall : IsLeastTtl shortest (effectiveTtl :: ([ttl] ++ (ttls ++
                (addressesOf (rolesFor message messageSize answers terminal)).map Prod.snd))) :=
              isLeastTtl_dnsShorterTtl hshortest hleast
            exact ⟨ttl :: ttls, .cons hmem hrole hchain, Nat.succ_lt_succ hlength, hhead, hall⟩
          | notFound shortest terminal =>
            rintro ⟨ttls, hchain, hlength, hnone, haddresses, hshortest⟩
            have hall : IsLeastTtl shortest (effectiveTtl :: ([ttl] ++ ttls)) :=
              isLeastTtl_dnsShorterTtl hshortest hleast
            exact ⟨ttl :: ttls, .cons hmem hrole hchain, Nat.succ_lt_succ hlength, hnone,
              haddresses, hall⟩

end

/-- `UINT32_MAX` stands for no time to live so far. -/
theorem isLeastTtl_of_max {ttl : UInt32} {ttls : List UInt32}
    (h : IsLeastTtl ttl (uint32Max :: ttls)) :
    (ttls = [] ∧ ttl = uint32Max) ∨ IsLeastTtl ttl ttls := by
  obtain ⟨hmem, hle⟩ := h
  rcases mem_cons.1 hmem with rfl | hmem
  · cases ttls with
    | nil => exact .inl ⟨rfl, rfl⟩
    | cons first rest =>
      have hfirst : first = uint32Max := by
        have h1 := UInt32.le_iff_toNat_le.1 (hle first (by simp))
        have h2 : first.toNat < 4294967296 := first.toNat_lt
        apply UInt32.toNat_inj.1
        have h3 : uint32Max.toNat = 4294967295 := rfl
        omega
      exact .inr ⟨by simp [hfirst], fun other hother => hle other (mem_cons_of_mem _ hother)⟩
  · exact .inr ⟨hmem, fun other hother => hle other (mem_cons_of_mem _ hother)⟩

/-- What `dns_find_address_answer` says of an answer section. -/
def FollowsAliases (message : Memory) (messageSize : ℕ) (answers : List DnsAnswerRecord)
    (queryName : CString) : DnsAnswer → Prop
  | .address ip ttl terminal => ∃ ttls,
      AliasChain message messageSize answers queryName ttls terminal ∧
        ttls.length ≤ dnsMaxCnameHops ∧
      (addressesOf (rolesFor message messageSize answers terminal)).head?.map Prod.fst = some ip ∧
      IsLeastTtl ttl (ttls ++
        (addressesOf (rolesFor message messageSize answers terminal)).map Prod.snd)
  | .notFound ttl terminal => ∃ ttls,
      AliasChain message messageSize answers queryName ttls terminal ∧
        ttls.length ≤ dnsMaxCnameHops ∧ answers.countP (isCname terminal) = 0 ∧
      addressesOf (rolesFor message messageSize answers terminal) = [] ∧
      ((ttls = [] ∧ ttl = uint32Max) ∨ IsLeastTtl ttl ttls)
  | .malformed => True

/-- The search for an address follows the alias chain of the query name, and it refuses the answer
if the chain is too long, comes back to a name or reaches a name with two aliases. -/
theorem alias_chain_followed (message : Memory) (messageSize answersOffset authorityOffset : ℕ)
    (answerCount : UInt16) (queryName : CString)
    (hparse : dnsSkipRecords message messageSize answerCount.toNat answersOffset =
      some authorityOffset) :
    ∃ answers, dnsAnswers message messageSize answerCount.toNat answersOffset = some answers ∧
      FollowsAliases message messageSize answers queryName
        (dnsFindAddressAnswer message messageSize answersOffset answerCount queryName) ∧
      ∀ name ttls, AliasChain message messageSize answers queryName ttls name →
        (dnsMaxCnameHops < ttls.length ∨ 2 ≤ answers.countP (isCname name) ∨
          ∃ more back, more ≠ [] ∧ AliasChain message messageSize answers name more back ∧
            dnsNamesEqual back name = true) →
        dnsFindAddressAnswer message messageSize answersOffset answerCount queryName =
          .malformed := by
  obtain ⟨answers, hanswers⟩ := exists_dnsAnswers hparse
  refine ⟨answers, hanswers, ?_, ?_⟩
  · have hends := endsChain_dnsFollowAliases hanswers (dnsMaxCnameHops + 1) queryName uint32Max
    rw [dnsFindAddressAnswer]
    revert hends
    cases dnsFollowAliases message messageSize answersOffset answerCount.toNat
      (dnsMaxCnameHops + 1) queryName uint32Max with
    | malformed => exact id
    | address ip ttl terminal =>
      rintro ⟨ttls, hchain, hlength, hhead, hleast⟩
      refine ⟨ttls, hchain, Nat.le_of_lt_succ hlength, hhead, ?_⟩
      refine (isLeastTtl_of_max hleast).resolve_left fun hnone => ?_
      have hempty := (append_eq_nil_iff.1 hnone.1).2
      rw [map_eq_nil_iff.1 hempty] at hhead
      cases hhead
    | notFound ttl terminal =>
      rintro ⟨ttls, hchain, hlength, hnone, haddresses, hleast⟩
      exact ⟨ttls, hchain, Nat.le_of_lt_succ hlength, hnone, haddresses, isLeastTtl_of_max hleast⟩
  · rintro name ttls hchain (hlong | htwo | ⟨more, back, hne, hcycle, hback⟩)
    · exact dnsFollowAliases_of_long hanswers hchain hlong uint32Max
    · exact dnsFollowAliases_of_two hanswers hchain htwo _ uint32Max
    · obtain ⟨long, terminal, hlength, hlong⟩ :=
        exists_long_chain hne hcycle hback (dnsMaxCnameHops + 1)
      refine dnsFollowAliases_of_long hanswers (hchain.append hlong) ?_ uint32Max
      rw [length_append]
      omega

/-- The name `q` is an alias of `a`, and `a` has the address `10.0.0.9`. -/
def aliasedAnswer : List UInt8 :=
  [1, 0x71, 0] ++ [0, 5, 0, 1, 0, 0, 1, 44, 0, 3] ++ [1, 0x61, 0] ++
    ([1, 0x61, 0] ++ [0, 1, 0, 1, 0, 0, 0, 60, 0, 4] ++ [10, 0, 0, 9])

theorem alias_chain_followed_aliasedAnswer :
    dnsSkipRecords (byteAt aliasedAnswer) 33 2 0 = some 33 ∧
    dnsFindAddressAnswer (byteAt aliasedAnswer) 33 0 2 (CString.ofString "Q") =
      .address 0x0A000009 60 (CString.ofString "a") ∧
    ∃ answers, dnsAnswers (byteAt aliasedAnswer) 33 2 0 = some answers ∧
      FollowsAliases (byteAt aliasedAnswer) 33 answers (CString.ofString "Q")
        (dnsFindAddressAnswer (byteAt aliasedAnswer) 33 0 2 (CString.ofString "Q")) := by
  have hparse : dnsSkipRecords (byteAt aliasedAnswer) 33 2 0 = some 33 := by decide
  obtain ⟨answers, hanswers, hfollows, -⟩ :=
    alias_chain_followed (byteAt aliasedAnswer) 33 0 33 2 (CString.ofString "Q") hparse
  exact ⟨hparse, rfl, answers, hanswers, hfollows⟩

/-- The name `q` has the address `10.0.0.9`; behind it, `z` is an alias of `a` and of `b`. -/
def strayAliases : List UInt8 :=
  [1, 0x71, 0] ++ [0, 1, 0, 1, 0, 0, 0, 60, 0, 4] ++ [10, 0, 0, 9] ++
    ([1, 0x7A, 0] ++ [0, 5, 0, 1, 0, 0, 1, 44, 0, 3] ++ [1, 0x61, 0]) ++
    ([1, 0x7A, 0] ++ [0, 5, 0, 1, 0, 0, 1, 44, 0, 3] ++ [1, 0x62, 0])

/-- Two aliases of a name that is not reached do no harm. -/
theorem stray_aliases_are_ignored :
    dnsSkipRecords (byteAt strayAliases) 49 3 0 = some 49 ∧
    (∃ answers, dnsAnswers (byteAt strayAliases) 49 3 0 = some answers ∧
      answers.countP (isCname (CString.ofString "z")) = 2) ∧
    dnsFindAddressAnswer (byteAt strayAliases) 49 0 3 (CString.ofString "q") =
      .address 0x0A000009 60 (CString.ofString "q") :=
  ⟨by decide, ⟨_, rfl, by decide⟩, rfl⟩

end Nostalux.Net
