import Mathlib.Tactic

/-!
# A mailbox with one place

A sender that cannot deliver a packet yet keeps it in a mailbox with a single place.  While the
packet waits, the sender asks for what is missing at most `limit` times, and it may hand the packet
to an unreliable carrier, in a frame that carries it, until the carrier takes it.  The packet may be
dropped at any time.  Every packet has a ticket, and the log records what has happened.  The `Rules`
say which packets are accepted, which frames carry them, and what else may happen.

* `Good` is the invariant: everything that is handed over for a ticket carries the packet that was
  accepted under it, the carrier takes it at most once, and the requests stay within the limit;
* `Good.steps`: it holds along every run;
* `allows_of_steps`: a run adds to the log only what the rules allow;
* `held_of_steps` and `attempt_of_steps`: a packet that has left the mailbox never comes back.
-/

namespace Mailbox

variable {P F E : Type*}

/-- An entry of the log. -/
inductive Record (P F E : Type*)
  /-- A packet got its ticket. -/
  | accept (ticket : ℕ) (packet : P)
  /-- What the packet waits for was asked for. -/
  | request (ticket : ℕ) (event : E)
  /-- The packet was handed to the carrier, which took it or not. -/
  | attempt (ticket : ℕ) (frame : F) (ok : Bool)
  /-- Something that has nothing to do with the mailbox. -/
  | other (event : E)

namespace Record

/-- The ticket an entry is about. -/
def ticket : Record P F E → Option ℕ
  | .accept ticket _ => some ticket
  | .request ticket _ => some ticket
  | .attempt ticket _ _ => some ticket
  | .other _ => none

/-- Whether the entry is a request for a ticket. -/
def isRequest (ticket : ℕ) : Record P F E → Bool
  | .request t _ => t = ticket
  | _ => false

/-- Whether the entry says that the carrier took the packet with the ticket. -/
def isDelivery (ticket : ℕ) : Record P F E → Bool
  | .attempt t _ true => t = ticket
  | _ => false

@[simp] theorem isRequest_request (t : ℕ) (event : E) (ticket : ℕ) :
    (.request t event : Record P F E).isRequest ticket = decide (t = ticket) := rfl

theorem ticket_of_isRequest {r : Record P F E} {t : ℕ} (h : r.isRequest t = true) :
    r.ticket = some t := by
  cases r <;> simp_all [isRequest, ticket]

theorem ticket_of_isDelivery {r : Record P F E} {t : ℕ} (h : r.isDelivery t = true) :
    r.ticket = some t := by
  cases r with
  | attempt t' f ok => cases ok <;> simp_all [isDelivery, ticket]
  | _ => simp_all [isDelivery]

end Record

/-- A packet in the mailbox. -/
structure Held (P : Type*) where
  ticket : ℕ
  packet : P
  /-- How often the sender has tried to ask. -/
  requests : ℕ

end Mailbox

/-- The state of a mailbox. -/
structure Mailbox (P F E : Type*) where
  slot : Option (Mailbox.Held P)
  /-- The number of tickets given out so far. -/
  issued : ℕ
  /-- Newest first. -/
  log : List (Mailbox.Record P F E)

namespace Mailbox

/-- What a sender keeps to. -/
structure Rules (P F E : Type*) where
  /-- The packets that are accepted. -/
  Admits : P → Prop
  /-- The frames that a packet is handed over in. -/
  Carries : P → F → Prop
  /-- How often the sender asks. -/
  limit : ℕ
  /-- What may happen besides, and how the sender asks. -/
  Foreign : E → Prop

variable {P F E : Type*} (rules : Rules P F E)

/-- One step of the sender. -/
inductive Step : Mailbox P F E → Mailbox P F E → Prop
  | accept {m} (packet : P) (h : m.slot = none) (ha : rules.Admits packet) :
      Step m ⟨some ⟨m.issued, packet, 0⟩, m.issued + 1, .accept m.issued packet :: m.log⟩
  | request {m held} (h : m.slot = some held) (hlt : held.requests < rules.limit) (event : E)
      (hf : rules.Foreign event) :
      Step m ⟨some { held with requests := held.requests + 1 }, m.issued,
        .request held.ticket event :: m.log⟩
  /-- The sender wants to ask but cannot. -/
  | forgo {m held} (h : m.slot = some held) (hlt : held.requests < rules.limit) :
      Step m { m with slot := some { held with requests := held.requests + 1 } }
  | refused {m held frame} (h : m.slot = some held) (hc : rules.Carries held.packet frame) :
      Step m { m with log := .attempt held.ticket frame false :: m.log }
  | taken {m held frame} (h : m.slot = some held) (hc : rules.Carries held.packet frame) :
      Step m ⟨none, m.issued, .attempt held.ticket frame true :: m.log⟩
  | drop {m} : Step m { m with slot := none }
  | other {m} (event : E) (hf : rules.Foreign event) :
      Step m { m with log := .other event :: m.log }

/-- Any number of steps. -/
abbrev Steps : Mailbox P F E → Mailbox P F E → Prop := Relation.ReflTransGen (Step rules)

/-- The invariant of a mailbox. -/
structure Good (m : Mailbox P F E) : Prop where
  slot_issued : ∀ held, m.slot = some held → held.ticket < m.issued
  slot_accepted : ∀ held, m.slot = some held → .accept held.ticket held.packet ∈ m.log
  slot_waits : ∀ held, m.slot = some held → m.log.countP (·.isDelivery held.ticket) = 0
  slot_requests : ∀ held, m.slot = some held →
    m.log.countP (·.isRequest held.ticket) ≤ held.requests ∧ held.requests ≤ rules.limit
  issued : ∀ r ∈ m.log, ∀ t, r.ticket = some t → t < m.issued
  carried : ∀ t f ok, .attempt t f ok ∈ m.log → ∃ p, .accept t p ∈ m.log ∧ rules.Carries p f
  unique : ∀ t p q, .accept t p ∈ m.log → .accept t q ∈ m.log → p = q
  once : ∀ t, m.log.countP (·.isDelivery t) ≤ 1
  bounded : ∀ t, m.log.countP (·.isRequest t) ≤ rules.limit

variable {rules} {m m' : Mailbox P F E}

/-- No entry of the log is about a ticket that was not given out. -/
theorem Good.countP_isRequest_issued (h : Good rules m) :
    m.log.countP (·.isRequest m.issued) = 0 := by
  rw [List.countP_eq_zero]
  intro r hr hreq
  exact absurd (h.issued r hr _ (Record.ticket_of_isRequest hreq)) (lt_irrefl _)

theorem Good.countP_isDelivery_issued (h : Good rules m) :
    m.log.countP (·.isDelivery m.issued) = 0 := by
  rw [List.countP_eq_zero]
  intro r hr hdel
  exact absurd (h.issued r hr _ (Record.ticket_of_isDelivery hdel)) (lt_irrefl _)

theorem good_empty : Good rules (⟨none, 0, []⟩ : Mailbox P F E) := by
  constructor <;> simp

section

variable (h : Good rules m)

include h

private theorem good_accept (packet : P) : Good rules
      ⟨some ⟨m.issued, packet, 0⟩, m.issued + 1, .accept m.issued packet :: m.log⟩ := by
  have hnew : ∀ p, .accept m.issued p ∉ m.log := fun p hp =>
    absurd (h.issued _ hp _ rfl) (lt_irrefl _)
  constructor
  case slot_issued => simp
  case slot_accepted => simp
  case slot_waits =>
    rintro held ⟨⟩
    simpa [Record.isDelivery] using h.countP_isDelivery_issued
  case slot_requests =>
    rintro held ⟨⟩
    simpa [Record.isRequest] using h.countP_isRequest_issued
  case issued =>
    intro r hr t ht
    rcases List.mem_cons.1 hr with rfl | hr
    · cases ht
      exact Nat.lt_succ_self _
    · exact Nat.lt_succ_of_lt (h.issued r hr t ht)
  case carried =>
    intro t f ok hmem
    obtain ⟨p, hp, hc⟩ := h.carried t f ok (by simpa using hmem)
    exact ⟨p, List.mem_cons_of_mem _ hp, hc⟩
  case unique =>
    intro t p q hp hq
    rcases List.mem_cons.1 hp with hp | hp <;> rcases List.mem_cons.1 hq with hq | hq
    · cases hp
      cases hq
      rfl
    · cases hp
      exact absurd hq (hnew q)
    · cases hq
      exact absurd hp (hnew p)
    · exact h.unique t p q hp hq
  case once => simpa [Record.isDelivery] using h.once
  case bounded => simpa [Record.isRequest] using h.bounded

private theorem good_request {held : Held P} (hs : m.slot = some held)
    (hlt : held.requests < rules.limit) (event : E) :
    Good rules ⟨some { held with requests := held.requests + 1 }, m.issued,
      .request held.ticket event :: m.log⟩ := by
  have hreq := h.slot_requests held hs
  constructor
  case slot_issued =>
    rintro held' ⟨⟩
    exact h.slot_issued held hs
  case slot_accepted =>
    rintro held' ⟨⟩
    exact List.mem_cons_of_mem _ (h.slot_accepted held hs)
  case slot_waits =>
    rintro held' ⟨⟩
    simpa [Record.isDelivery] using h.slot_waits held hs
  case slot_requests =>
    rintro held' ⟨⟩
    simp only [List.countP_cons, Record.isRequest_request, decide_true, if_true]
    omega
  case issued =>
    intro r hr t ht
    rcases List.mem_cons.1 hr with rfl | hr
    · cases ht
      exact h.slot_issued held hs
    · exact h.issued r hr t ht
  case carried => simpa using h.carried
  case unique => simpa using h.unique
  case once => simpa [Record.isDelivery] using h.once
  case bounded =>
    intro t
    rw [List.countP_cons]
    by_cases ht : held.ticket = t
    · subst ht
      simp only [Record.isRequest_request, decide_true, if_true]
      omega
    · simpa [Record.isRequest, ht] using h.bounded t

/-- Handing the packet over; the mailbox keeps it exactly when it is refused. -/
private theorem good_attempt {held : Held P} {frame : F} (ok : Bool)
    (hs : m.slot = some held) (hc : rules.Carries held.packet frame) :
    Good rules ⟨if ok then none else m.slot, m.issued,
      .attempt held.ticket frame ok :: m.log⟩ := by
  constructor
  case slot_issued =>
    intro held' hs'
    cases ok with
    | true => cases hs'
    | false => exact h.slot_issued held' hs'
  case slot_accepted =>
    intro held' hs'
    cases ok with
    | true => cases hs'
    | false => exact List.mem_cons_of_mem _ (h.slot_accepted held' hs')
  case slot_waits =>
    intro held' hs'
    cases ok with
    | true => cases hs'
    | false => simpa [Record.isDelivery] using h.slot_waits held' hs'
  case slot_requests =>
    intro held' hs'
    cases ok with
    | true => cases hs'
    | false => simpa [Record.isRequest] using h.slot_requests held' hs'
  case issued =>
    intro r hr t ht
    rcases List.mem_cons.1 hr with rfl | hr
    · cases ht
      exact h.slot_issued held hs
    · exact h.issued r hr t ht
  case carried =>
    intro t f ok' hmem
    rcases List.mem_cons.1 hmem with hmem | hmem
    · cases hmem
      exact ⟨held.packet, List.mem_cons_of_mem _ (h.slot_accepted held hs), hc⟩
    · obtain ⟨p, hp, hc⟩ := h.carried t f ok' hmem
      exact ⟨p, List.mem_cons_of_mem _ hp, hc⟩
  case unique => simpa using h.unique
  case once =>
    intro t
    rw [List.countP_cons]
    by_cases ht : held.ticket = t
    · subst ht
      have hwaits := h.slot_waits held hs
      split_ifs <;> omega
    · cases ok <;> simpa [Record.isDelivery, ht] using h.once t
  case bounded => simpa [Record.isRequest] using h.bounded

/-- A step that leaves the log alone and keeps a packet at most with more requests. -/
private theorem good_slot {slot : Option (Held P)}
    (hslot : ∀ held', slot = some held' → ∃ held, m.slot = some held ∧
      held'.ticket = held.ticket ∧ held'.packet = held.packet ∧
      held.requests ≤ held'.requests ∧ held'.requests ≤ rules.limit) :
    Good rules { m with slot := slot } where
  slot_issued held' hs' := by
    obtain ⟨held, hs, ht, -⟩ := hslot held' hs'
    exact ht ▸ h.slot_issued held hs
  slot_accepted held' hs' := by
    obtain ⟨held, hs, ht, hp, -⟩ := hslot held' hs'
    exact ht ▸ hp ▸ h.slot_accepted held hs
  slot_waits held' hs' := by
    obtain ⟨held, hs, ht, -⟩ := hslot held' hs'
    exact ht ▸ h.slot_waits held hs
  slot_requests held' hs' := by
    obtain ⟨held, hs, ht, -, hle, hlim⟩ := hslot held' hs'
    exact ⟨ht ▸ (h.slot_requests held hs).1.trans hle, hlim⟩
  issued := h.issued
  carried := h.carried
  unique := h.unique
  once := h.once
  bounded := h.bounded

private theorem good_other (event : E) : Good rules { m with log := .other event :: m.log } where
  slot_issued := h.slot_issued
  slot_accepted held hs := List.mem_cons_of_mem _ (h.slot_accepted held hs)
  slot_waits := by simpa [Record.isDelivery] using h.slot_waits
  slot_requests := by simpa [Record.isRequest] using h.slot_requests
  issued r hr t ht := by
    rcases List.mem_cons.1 hr with rfl | hr
    · cases ht
    · exact h.issued r hr t ht
  carried := by simpa using h.carried
  unique := by simpa using h.unique
  once := by simpa [Record.isDelivery] using h.once
  bounded := by simpa [Record.isRequest] using h.bounded

theorem Good.step (hstep : Step rules m m') : Good rules m' := by
  cases hstep with
  | accept packet _ _ => exact good_accept h packet
  | request hs hlt event hf => exact good_request h hs hlt event
  | forgo hs hlt =>
    refine good_slot h fun held' hs' => ?_
    cases hs'
    exact ⟨_, hs, rfl, rfl, Nat.le_succ _, hlt⟩
  | refused hs hc => exact good_attempt h false hs hc
  | taken hs hc => exact good_attempt h true hs hc
  | drop => exact good_slot h fun held' hs' => by cases hs'
  | other event _ => exact good_other h event

/-- The invariant holds along every run. -/
theorem Good.steps (hsteps : Steps rules m m') : Good rules m' := by
  induction hsteps with
  | refl => exact h
  | tail _ hstep ih => exact ih.step hstep

end

/-! ### What a run leaves behind -/

/-- Tickets are never taken back. -/
theorem issued_of_steps (hsteps : Steps rules m m') : m.issued ≤ m'.issued := by
  induction hsteps with
  | refl => exact le_rfl
  | tail _ hstep ih =>
    refine ih.trans ?_
    cases hstep with
    | accept packet hs ha => exact Nat.le_succ _
    | _ => exact le_rfl

/-- What the rules allow in the log. -/
def Rules.Allows (rules : Rules P F E) : Record P F E → Prop
  | .accept _ packet => rules.Admits packet
  | .request _ event => rules.Foreign event
  | .attempt _ frame _ => ∃ packet, rules.Admits packet ∧ rules.Carries packet frame
  | .other event => rules.Foreign event

/-- A packet in the mailbox that can be handed over was accepted by the rules. -/
def Admitted (rules : Rules P F E) (m : Mailbox P F E) : Prop :=
  ∀ held frame, m.slot = some held → rules.Carries held.packet frame → rules.Admits held.packet

theorem Admitted.step (h : Admitted rules m) (hstep : Step rules m m') :
    Admitted rules m' ∧ ∃ new, m'.log = new ++ m.log ∧ ∀ r ∈ new, rules.Allows r := by
  cases hstep with
  | accept packet hs ha =>
    refine ⟨?_, [_], rfl, by simpa [Rules.Allows] using ha⟩
    rintro held frame ⟨⟩ -
    exact ha
  | @request held hs hlt event hf =>
    refine ⟨?_, [_], rfl, by simpa [Rules.Allows] using hf⟩
    rintro held' frame ⟨⟩
    exact h held frame hs
  | @forgo held hs hlt =>
    refine ⟨?_, [], rfl, nofun⟩
    rintro held' frame ⟨⟩
    exact h held frame hs
  | refused hs hc => exact ⟨h, [_], rfl, by simpa [Rules.Allows] using ⟨_, h _ _ hs hc, hc⟩⟩
  | taken hs hc => exact ⟨nofun, [_], rfl, by simpa [Rules.Allows] using ⟨_, h _ _ hs hc, hc⟩⟩
  | drop => exact ⟨nofun, [], rfl, nofun⟩
  | other event hf => exact ⟨h, [_], rfl, by simpa [Rules.Allows] using hf⟩

/-- A run adds to the log only what the rules allow. -/
theorem allows_of_steps (h : Admitted rules m) (hsteps : Steps rules m m') :
    Admitted rules m' ∧ ∃ new, m'.log = new ++ m.log ∧ ∀ r ∈ new, rules.Allows r := by
  induction hsteps with
  | refl => exact ⟨h, [], rfl, nofun⟩
  | tail _ hstep ih =>
    obtain ⟨hmid, new, hnew, hallows⟩ := ih
    obtain ⟨hend, new', hnew', hallows'⟩ := hmid.step hstep
    refine ⟨hend, new' ++ new, by rw [hnew', hnew, List.append_assoc], fun r hr => ?_⟩
    exact (List.mem_append.1 hr).elim (hallows' r) (hallows r)

/-- A packet with an old ticket was in the mailbox before. -/
theorem held_of_steps (hsteps : Steps rules m m') {held' : Held P}
    (hs' : m'.slot = some held') (hold : held'.ticket < m.issued) :
    ∃ held, m.slot = some held ∧ held.ticket = held'.ticket ∧ held.packet = held'.packet := by
  induction hsteps generalizing held' with
  | refl => exact ⟨held', hs', rfl, rfl⟩
  | tail hsteps hstep ih =>
    cases hstep with
    | accept packet hs ha =>
      cases hs'
      exact absurd (issued_of_steps hsteps) (by simpa using hold)
    | request hs | forgo hs =>
      cases hs'
      obtain ⟨held, h⟩ := ih hs hold
      exact ⟨held, h⟩
    | refused hs hc => exact ih hs' hold
    | taken hs hc => cases hs'
    | drop => cases hs'
    | other event hf => exact ih hs' hold

/-- A packet with an old ticket that is handed over was in the mailbox before. -/
theorem attempt_of_steps (hsteps : Steps rules m m') {t : ℕ} {f : F} {ok : Bool}
    (hmem : .attempt t f ok ∈ m'.log) (hold : t < m.issued) :
    .attempt t f ok ∈ m.log ∨
      ∃ held, m.slot = some held ∧ held.ticket = t ∧ rules.Carries held.packet f := by
  induction hsteps with
  | refl => exact .inl hmem
  | @tail m₁ m₂ hsteps hstep ih =>
    have handed : ∀ {held : Held P} {frame : F} {ok' : Bool}, m₁.slot = some held →
        rules.Carries held.packet frame →
        .attempt t f ok ∈ (.attempt held.ticket frame ok' :: m₁.log : List (Record P F E)) →
        .attempt t f ok ∈ m.log ∨
          ∃ held, m.slot = some held ∧ held.ticket = t ∧ rules.Carries held.packet f := by
      intro held frame ok' hs hc hmem
      rcases List.mem_cons.1 hmem with hmem | hmem
      · cases hmem
        obtain ⟨held₀, hs₀, ht, hp⟩ := held_of_steps hsteps hs hold
        exact .inr ⟨held₀, hs₀, ht, hp ▸ hc⟩
      · exact ih hmem
    cases hstep with
    | accept packet hs ha => exact ih (by simpa using hmem)
    | request hs hlt event hf => exact ih (by simpa using hmem)
    | forgo hs hlt => exact ih hmem
    | refused hs hc => exact handed hs hc hmem
    | taken hs hc => exact handed hs hc hmem
    | drop => exact ih hmem
    | other event hf => exact ih (by simpa using hmem)

end Mailbox
