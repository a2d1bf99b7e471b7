import Robins.Auth.Cps

/-!
# Every cached decision comes from a lookup

A decision that is answered from the cache was made by somebody: by a lookup of the same sensor
that returned it, after the reader was verified, and a deny not too long ago.  Since calls
interleave, the entry that a call finds may have been left by a call that is long over, or by one
that is still going on.

## The account

`Reason` says for each thing a run shows what must have been shown before it, and `Accounted` says
the same of everything the state holds: each entry of the cache is that of a lookup that returned
its decision, and each call that has gone beyond the cell did so after the reader was verified.
One step keeps the account (`Accounted.step`), whichever calls are in progress, and so every
answer of every run has its reason.

The clock is a matter of its own.  A call reads it in one step and uses the time in another, and
in between it may go on; `Stamped` says of which step of the run each time that is shown was
read.

## What a run guarantees

`CacheSound` collects it: justified decisions, no trace of a lookup that failed, a cache within
its capacity, times read off the run's clock.  The cache itself is any `BoundedCache`; which entry
it drops when it is full is left to its implementation.
-/

namespace Robins
namespace Auth

open Protocol

/-! ## What must have happened -/

/-- What must have happened before an observation. -/
def Reason (auth : CpsAuth) (h : List Observation) : Observation → Prop
  | .completed _ _ _ => ∃ id, .verified id ∈ h
  | .stored id sensor allowed _ => .completed id sensor allowed ∈ h ∧
    ∀ sensor' error, .answered id sensor' (.error error) ∉ h
  | .hit _ sensor true _ => ∃ id, .completed id sensor true ∈ h
  /- A deny from the cache was stored less than the time denials are kept before. -/
  | .hit _ sensor false now => ∃ id since, .completed id sensor false ∈ h ∧
    .stored id sensor false since ∈ h ∧ now < since + auth.negativeTtl
  | .answered id sensor (.ok allowed) => .completed id sensor allowed ∈ h
  | .answered id _ (.error _) => ∀ sensor allowed since, .stored id sensor allowed since ∉ h
  | _ => True

/-- An entry is that of a lookup of the sensor. -/
def Remembered (auth : CpsAuth) (h : List Observation) (sensor : SensorId) (entry : Entry) :
    Prop :=
  ∃ id since, .completed id sensor entry.allowed ∈ h ∧
    .stored id sensor entry.allowed since ∈ h ∧ entry = auth.entry entry.allowed since

/-- What must have happened for a call to be in a phase. -/
def Phase.Accounted (auth : CpsAuth) (h : List Observation) (verified : Cell) (now : Instant)
    (id : ℕ) (sensor : SensorId) : Phase → Prop
  | .probe t => t ≤ now
  | .snapshotting | .binding | .climbing _ _ _ => verified = .set
  | .decided allowed => .completed id sensor allowed ∈ h
  | .storing entry since => .completed id sensor entry.allowed ∈ h ∧
    entry = auth.entry entry.allowed since
  | _ => True

/-- The last observations of a call. -/
def Observation.Ends (id : ℕ) : Observation → Prop
  | .stored id' _ _ _ | .answered id' _ _ => id' = id
  | _ => False

structure Accounted (auth : CpsAuth) {caches : Caches} (h : List Observation)
    (s : State caches) : Prop where
  cap : caches.cap s.cache = auth.capacity
  len : caches.len s.cache ≤ auth.capacity
  entry : ∀ sensor entry, caches.peek s.cache sensor = some entry → Remembered auth h sensor entry
  verified : s.verified = .set → ∃ id, .verified id ∈ h
  call : ∀ id call, s.calls id = some call →
    id < s.next ∧ call.phase.Accounted auth h s.verified s.now id call.sensor
  quiet : ∀ id, s.calls id ≠ none ∨ s.next ≤ id → ∀ a ∈ h, ¬ a.Ends id

section

variable {auth : CpsAuth} {h o : List Observation}

theorem Remembered.append {sensor : SensorId} {entry : Entry}
    (hr : Remembered auth h sensor entry) : Remembered auth (h ++ o) sensor entry := by
  obtain ⟨id, since, hcompleted, hstored, heq⟩ := hr
  exact ⟨id, since, List.mem_append_left _ hcompleted, List.mem_append_left _ hstored, heq⟩

/-- A phase stays accounted for as the run goes on: the cell is never unset. -/
theorem Phase.Accounted.mono {verified verified' : Cell} {now now' : Instant} {id : ℕ}
    {sensor : SensorId} {phase : Phase} (ha : phase.Accounted auth h verified now id sensor)
    (hset : verified = .set → verified' = .set) (hle : now ≤ now') :
    phase.Accounted auth (h ++ o) verified' now' id sensor := by
  cases phase with
  | probe t => exact Nat.le_trans ha hle
  | snapshotting | binding | climbing => exact hset ha
  | decided allowed => exact List.mem_append_left _ ha
  | storing entry since => exact ⟨List.mem_append_left _ ha.1, ha.2⟩
  | check | waiting | verifying => trivial

end

/-! ## Steps -/

namespace Accounted

variable {auth : CpsAuth} {caches : Caches} {s s' : State caches} {h o : List Observation}

theorem start (hc : caches.Lawful) : Accounted auth [] (auth.start caches) where
  cap := hc.cap_new _
  len := by
    show caches.len (caches.new auth.capacity) ≤ auth.capacity
    rw [hc.len_new]
    exact Nat.zero_le _
  entry sensor entry hpeek := by
    have hpeek' : caches.peek (caches.new auth.capacity) sensor = some entry := hpeek
    rw [hc.peek_new] at hpeek'
    exact absurd hpeek' (by simp)
  verified hset := absurd hset (by simp [CpsAuth.start])
  call id call hcall := absurd hcall (by simp [CpsAuth.start])
  quiet _ _ _ ha := absurd ha List.not_mem_nil

/-- One call goes on, or is over: what has to be shown. -/
theorem next (a : Accounted auth h s) {id : ℕ} {call : Call} {x : Option Call}
    {cache : caches.Cache} {cell : Cell} (hcall : s.calls id = some call)
    (hcap : caches.cap cache = auth.capacity) (hlen : caches.len cache ≤ auth.capacity)
    (hentry : ∀ sensor entry, caches.peek cache sensor = some entry →
      caches.peek s.cache sensor = some entry ∨ Remembered auth (h ++ o) sensor entry)
    (hset : s.verified = .set → cell = .set)
    (hverified : cell = .set → ∃ id, .verified id ∈ h ++ o)
    (hphase : ∀ call', x = some call' →
      call'.phase.Accounted auth (h ++ o) cell s.now id call'.sensor)
    (hends : ∀ ob ∈ o, ∀ id', ob.Ends id' → id' = id ∧ x = none) :
    Accounted auth (h ++ o)
      { s with cache, verified := cell, calls := Function.update s.calls id x } where
  cap := hcap
  len := hlen
  entry sensor entry hpeek := (hentry sensor entry hpeek).elim
    (fun hold => (a.entry sensor entry hold).append) (fun hnew => hnew)
  verified := hverified
  call id' call' hcall' := by
    dsimp only at hcall'
    by_cases hid : id' = id
    · subst hid
      have hx : x = some call' := by
        rw [← hcall', Function.update_self]
      exact ⟨(a.call id' call hcall).1, hphase call' hx⟩
    · have hold : s.calls id' = some call' := by
        rw [← hcall', Function.update_of_ne hid]
      obtain ⟨hlt, hacc⟩ := a.call id' call' hold
      exact ⟨hlt, hacc.mono hset (Nat.le_refl _)⟩
  quiet id' hid' ob hob hends' := by
    dsimp only at hid'
    rcases List.mem_append.mp hob with hob | hob
    · refine a.quiet id' (hid'.imp_left fun hne => ?_) ob hob hends'
      by_cases hid : id' = id
      · rw [hid, hcall]
        exact Option.some_ne_none call
      · rwa [Function.update_of_ne hid] at hne
    · obtain ⟨rfl, rfl⟩ := hends ob hob id' hends'
      rcases hid' with hne | hle
      · exact hne (Function.update_self _ _ _)
      · exact absurd (a.call id' call hcall).1 (Nat.not_lt.mpr hle)

/-- A call is in another phase; the cache is as it was. -/
theorem goto (a : Accounted auth h s) {id : ℕ} {call : Call} {phase : Phase}
    (hcall : s.calls id = some call)
    (hphase : phase.Accounted auth (h ++ o) s.verified s.now id call.sensor)
    (hends : ∀ ob ∈ o, ∀ id', ¬ ob.Ends id') : Accounted auth (h ++ o) (s.goto id call phase) := by
  refine a.next hcall a.cap a.len (fun _ _ => .inl) (fun hset => hset) (fun hset => ?_)
    (fun call' hx => ?_) (fun ob hob id' he => absurd he (hends ob hob id'))
  · obtain ⟨id', hv⟩ := a.verified hset
    exact ⟨id', List.mem_append_left _ hv⟩
  · obtain rfl := Option.some.inj hx
    exact hphase

/-- A call is over, with another cache that holds no more. -/
theorem finish (a : Accounted auth h s) {id : ℕ} {call : Call} {cache : caches.Cache}
    (hcall : s.calls id = some call) (hcap : caches.cap cache = auth.capacity)
    (hlen : caches.len cache ≤ auth.capacity)
    (hentry : ∀ sensor entry, caches.peek cache sensor = some entry →
      caches.peek s.cache sensor = some entry ∨ Remembered auth (h ++ o) sensor entry)
    (hends : ∀ ob ∈ o, ∀ id', ob.Ends id' → id' = id) :
    Accounted auth (h ++ o) { s.finish id with cache } := by
  refine a.next hcall hcap hlen hentry State.finish_verified_eq_set_iff.mpr (fun hset => ?_)
    (by simp)
    (fun ob hob id' he => ⟨hends ob hob id' he, rfl⟩)
  obtain ⟨id', hv⟩ := a.verified (State.finish_verified_eq_set_iff.mp hset)
  exact ⟨id', List.mem_append_left _ hv⟩

end Accounted

/-! ## The cache

A visit of the cache may find an entry, drop one that has expired, or find nothing.  In no case
does it add anything, and what it answers is an entry that has not expired at the time it is given
(`cached_spec`).  Only the end of a lookup stores an entry. -/

section

variable {auth : CpsAuth} {caches : Caches} {s : State caches} {sensor : SensorId} {now : Instant}
  {result : Option Bool} {cache : caches.Cache}

/-- What a visit of the cache leaves: a decision that has expired is gone. -/
theorem cached_spec (hc : caches.Lawful) (hcached : s.cached sensor now = (result, cache)) :
    caches.cap cache = caches.cap s.cache ∧ caches.len cache ≤ caches.len s.cache ∧
      (∀ sensor', caches.peek cache sensor' = caches.peek s.cache sensor' ∨
        (caches.peek cache sensor' = none ∧ ∃ entry,
          caches.peek s.cache sensor' = some entry ∧ entry.expired now = true)) ∧
      (∀ allowed, result = some allowed → ∃ entry, caches.peek s.cache sensor = some entry ∧
        entry.allowed = allowed ∧ entry.expired now = false) := by
  have hfst := hc.get_fst s.cache sensor
  have hcap := hc.cap_get s.cache sensor
  have hlen := hc.len_get s.cache sensor
  have hpeek := hc.peek_get s.cache sensor
  unfold State.cached at hcached
  generalize caches.get s.cache sensor = got at hcached hfst hcap hlen hpeek
  obtain ⟨found, cache'⟩ := got
  cases found with
  | none =>
    obtain ⟨rfl, rfl⟩ := Prod.mk.inj hcached
    exact ⟨hcap, Nat.le_of_eq hlen, fun sensor' => .inl (hpeek sensor'), by simp⟩
  | some entry =>
    dsimp only at hcached
    split_ifs at hcached with hexpired
    · obtain ⟨rfl, rfl⟩ := Prod.mk.inj hcached
      refine ⟨(hc.cap_pop _ _).trans hcap, Nat.le_trans (hc.len_pop _ _) (Nat.le_of_eq hlen),
        fun sensor' => ?_, by simp⟩
      by_cases hs : sensor' = sensor
      · subst hs
        exact .inr ⟨hc.peek_pop_self _ _, entry, hfst.symm, hexpired⟩
      · exact .inl ((hc.peek_pop_of_ne _ _ _ hs).trans (hpeek sensor'))
    · obtain ⟨rfl, rfl⟩ := Prod.mk.inj hcached
      refine ⟨hcap, Nat.le_of_eq hlen, fun sensor' => .inl (hpeek sensor'), fun allowed heq => ?_⟩
      exact ⟨entry, hfst.symm, Option.some.inj heq, Bool.eq_false_iff.mpr hexpired⟩

end

namespace Accounted

variable {auth : CpsAuth} {caches : Caches} {s s' : State caches} {h o : List Observation}

theorem reason_hit (hc : caches.Lawful) (a : Accounted auth h s) {id : ℕ} {call : Call}
    {now : Instant} {allowed : Bool} {cache : caches.Cache}
    (hcached : s.cached call.sensor now = (some allowed, cache)) :
    Reason auth h (.hit id call.sensor allowed now) := by
  obtain ⟨-, -, -, hlive⟩ := cached_spec hc hcached
  obtain ⟨entry, hpeek, rfl, hexpired⟩ := hlive allowed rfl
  obtain ⟨id', since, hcompleted, hstored, heq⟩ := a.entry call.sensor entry hpeek
  cases hallowed : entry.allowed with
  | true => exact ⟨id', by rwa [hallowed] at hcompleted⟩
  | false =>
    rw [hallowed] at hcompleted hstored heq
    refine ⟨id', since, hcompleted, hstored, ?_⟩
    rw [heq] at hexpired
    simpa [Entry.expired, CpsAuth.entry] using hexpired

/-- A visit of the cache adds nothing. -/
theorem visited (hc : caches.Lawful) (a : Accounted auth h s) {sensor : SensorId} {now : Instant}
    {result : Option Bool} {cache : caches.Cache}
    (hcached : s.cached sensor now = (result, cache)) :
    caches.cap cache = auth.capacity ∧ caches.len cache ≤ auth.capacity ∧
      ∀ sensor' entry, caches.peek cache sensor' = some entry →
        caches.peek s.cache sensor' = some entry := by
  obtain ⟨hcap, hlen, hpeek, -⟩ := cached_spec hc hcached
  refine ⟨hcap.trans a.cap, Nat.le_trans hlen a.len, fun sensor' entry hfound => ?_⟩
  rcases hpeek sensor' with hsame | ⟨hnone, -⟩
  · rw [← hsame, hfound]
  · rw [hnone] at hfound
    exact absurd hfound (by simp)

/-- A call that asks the chain does so after the reader was verified. -/
theorem verified_of_asking (a : Accounted auth h s) {id : ℕ} {call : Call}
    (hcall : s.calls id = some call) (hphase : call.phase.isAsking = true) :
    s.verified = .set := by
  have hacc := (a.call id call hcall).2
  cases hp : call.phase with
  | binding | climbing =>
    rw [hp] at hacc
    exact hacc
  | _ =>
    rw [hp] at hphase
    exact absurd hphase (by simp [Phase.isAsking])

theorem tick (a : Accounted auth h s) {now : Instant} (hle : s.now ≤ now) :
    Accounted auth (h ++ []) { s with now } := by
  refine ⟨a.cap, a.len, fun sensor entry hpeek => (a.entry sensor entry hpeek).append, ?_, ?_, ?_⟩
  · rw [List.append_nil]
    exact a.verified
  · intro id call hcall
    obtain ⟨hlt, hacc⟩ := a.call id call hcall
    exact ⟨hlt, hacc.mono (fun hset => hset) hle⟩
  · rw [List.append_nil]
    exact a.quiet

theorem called (a : Accounted auth h s) (method : Method) (sensor : SensorId) :
    Accounted auth (h ++ []) { s with
      next := s.next + 1
      calls := Function.update s.calls s.next (some ⟨method, sensor, .check⟩) } := by
  refine ⟨a.cap, a.len, fun sensor entry hpeek => (a.entry sensor entry hpeek).append, ?_, ?_, ?_⟩
  · rw [List.append_nil]
    exact a.verified
  · intro id call hcall
    dsimp only at hcall ⊢
    by_cases hid : id = s.next
    · subst hid
      rw [Function.update_self] at hcall
      obtain rfl := Option.some.inj hcall
      exact ⟨Nat.lt_succ_self _, trivial⟩
    · rw [Function.update_of_ne hid] at hcall
      obtain ⟨hlt, hacc⟩ := a.call id call hcall
      exact ⟨Nat.lt_succ_of_lt hlt, hacc.mono (fun hset => hset) (Nat.le_refl _)⟩
  · intro id hid
    rw [List.append_nil]
    refine a.quiet id ?_
    dsimp only at hid
    by_cases hnext : id = s.next
    · exact .inr (Nat.le_of_eq hnext.symm)
    · rw [Function.update_of_ne hnext] at hid
      exact hid.imp_right fun hle => Nat.le_of_succ_le hle

theorem step (hc : caches.Lawful) (a : Accounted auth h s) {e : Event}
    (hmove : Move auth s e s' o) : Accounted auth (h ++ o) s' := by
  have hkeep : ∀ sensor entry, caches.peek s.cache sensor = some entry →
      caches.peek s.cache sensor = some entry ∨ Remembered auth (h ++ o) sensor entry :=
    fun _ _ => .inl
  cases hmove with
  | tick hle => exact a.tick hle
  | call => exact a.called _ _
  | look hcall => exact a.goto hcall (Nat.le_refl _) (by simp)
  | hit hcall _ hcached | miss hcall _ hcached =>
    obtain ⟨hcap, hlen, hentry⟩ := a.visited hc hcached
    exact a.finish hcall hcap hlen (fun sensor entry hfound => .inl (hentry sensor entry hfound))
      (by simp [Observation.Ends])
  | enter hcall _ hcached =>
    obtain ⟨hcap, hlen, hentry⟩ := a.visited hc hcached
    refine a.next hcall hcap hlen (fun sensor entry hfound => .inl (hentry sensor entry hfound))
      (fun hset => hset) ?_ (fun call' hx => ?_) (by simp)
    · rw [List.append_nil]
      exact a.verified
    · obtain rfl := Option.some.inj hx
      trivial
  | proceed hcall _ hset => exact a.goto hcall hset (by simp)
  | begin hcall _ hempty =>
    refine a.next hcall a.cap a.len hkeep (fun hset => ?_) (by simp) (fun call' hx => ?_) (by simp)
    · rw [hempty] at hset
      exact absurd hset (by simp)
    · obtain rfl := Option.some.inj hx
      trivial
  | verified hcall =>
    refine a.next hcall a.cap a.len hkeep (fun _ => rfl)
      (fun _ => ⟨_, List.mem_append_right _ List.mem_cons_self⟩) (fun call' hx => ?_)
      (by simp [Observation.Ends])
    obtain rfl := Option.some.inj hx
    exact rfl
  | pinned hcall hphase =>
    have hacc := (a.call _ _ hcall).2
    rw [hphase] at hacc
    exact a.goto hcall hacc (by simp)
  | ask _ hcall hphase => exact a.goto hcall (a.verified_of_asking hcall hphase) (by simp)
  | completed _ hcall =>
    exact a.goto hcall (List.mem_append_right _ List.mem_cons_self) (by simp [Observation.Ends])
  | fail _ hcall => exact a.finish hcall a.cap a.len hkeep (by simp [Observation.Ends])
  | cancel hcall => exact a.finish hcall a.cap a.len hkeep (by simp)
  | entry hcall hphase =>
    have hacc := (a.call _ _ hcall).2
    rw [hphase] at hacc
    exact a.goto hcall ⟨List.mem_append_left _ hacc, rfl⟩ (by simp)
  | @store id call entry since hcall hphase =>
    have hacc := (a.call _ _ hcall).2
    rw [hphase] at hacc
    have hpos : 0 < caches.cap s.cache := a.cap ▸ auth.capacity_pos
    have hlen := hc.len_put_le hpos (a.cap ▸ a.len) call.sensor entry
    rw [hc.cap_put, a.cap] at hlen
    refine a.finish hcall ((hc.cap_put _ _ _).trans a.cap) hlen (fun sensor entry' hfound => ?_)
      (by simp [Observation.Ends])
    rcases hc.peek_put hpos hfound with ⟨rfl, rfl⟩ | hold
    · exact .inr ⟨id, since, List.mem_append_left _ hacc.1, by simp, hacc.2⟩
    · exact .inl hold

theorem reason (hc : caches.Lawful) (a : Accounted auth h s) {e : Event}
    (hmove : Move auth s e s' o) (hjust : EventMachine.Justified (Reason auth) h) :
    EventMachine.Justified (Reason auth) (h ++ o) := by
  cases hmove with
  | hit hcall _ hcached =>
    exact EventMachine.justified_append_singleton.mpr ⟨hjust, a.reason_hit hc hcached⟩
  | miss => exact EventMachine.justified_append_singleton.mpr ⟨hjust, trivial⟩
  | verified => exact EventMachine.justified_append_singleton.mpr ⟨hjust, trivial⟩
  | completed _ hcall hphase =>
    exact EventMachine.justified_append_singleton.mpr
      ⟨hjust, a.verified (a.verified_of_asking hcall hphase)⟩
  | @fail _ id call error _ hcall =>
    refine EventMachine.justified_append_singleton.mpr ⟨hjust, fun sensor allowed since hmem => ?_⟩
    exact a.quiet id (.inl (by rw [hcall]; simp)) _ hmem rfl
  | @store id call entry since hcall hphase =>
    have hacc := (a.call _ _ hcall).2
    rw [hphase] at hacc
    rw [List.append_cons]
    refine EventMachine.justified_append_singleton.mpr
      ⟨EventMachine.justified_append_singleton.mpr ⟨hjust, hacc.1, fun sensor error hmem => ?_⟩,
        List.mem_append_left _ hacc.1⟩
    exact a.quiet id (.inl (by rw [hcall]; simp)) _ hmem rfl
  | _ => exact hjust.append_nil

end Accounted

/-! ## Runs -/

/-- **Every run is accounted for.**  At the start the cache is empty and no call is in progress,
so there is nothing to account for. -/
theorem accounted_of_exec {auth : CpsAuth} {caches : Caches} (hc : caches.Lawful)
    {es : List Event} {s : State caches} {h : List Observation}
    (hrun : (cpsMachine auth caches).exec (auth.start caches) es = some (s, h)) :
    Accounted auth h s ∧ EventMachine.Justified (Reason auth) h := by
  refine EventMachine.exec_induction (P := fun _ h s =>
    Accounted auth h s ∧ EventMachine.Justified (Reason auth) h) ?_ ?_ hrun
  · exact ⟨.start hc, EventMachine.justified_nil _⟩
  · intro _ h s e s' o _ ih hstep
    have hmove := move_of_step hstep
    exact ⟨ih.1.step hc hmove, ih.1.reason hc hmove ih.2⟩

/-! ## The clock

A call reads the clock in one step and uses the time in another, and in between the clock may go
on.  The times that a run shows are readings of the clock by the call that shows them: before the
visit of the cache, and after the decision. -/

/-- What the clock shows after the events. -/
def clock (es : List Event) : Instant :=
  ((es.filterMap fun | .tick now => some now | _ => none).getLast?).getD 0

section

variable {auth : CpsAuth} {caches : Caches} {s s' : State caches} {es : List Event}
  {h o : List Observation}

@[simp] theorem clock_snoc_tick (es : List Event) (now : Instant) :
    clock (es ++ [.tick now]) = now := by
  simp [clock, List.filterMap_append]

theorem clock_snoc_of_ne {e : Event} (he : ∀ now, e ≠ .tick now) :
    clock (es ++ [e]) = clock es := by
  have hnone : ([e].filterMap fun | .tick now => some now | _ => none : List Instant) = [] := by
    cases e with
    | tick now => exact absurd rfl (he now)
    | _ => rfl
  rw [clock, List.filterMap_append, hnone, List.append_nil, clock]

theorem now_of_move {e : Event} (hmove : Move auth s e s' o) (hclock : s.now = clock es) :
    s'.now = clock (es ++ [e]) := by
  cases hmove with
  | tick => rw [clock_snoc_tick]
  | ask hanswers | completed hanswers =>
    refine hclock.trans (clock_snoc_of_ne ?_).symm
    rintro now rfl
    exact hanswers.elim
  | fail htarget =>
    refine hclock.trans (clock_snoc_of_ne ?_).symm
    rintro now rfl
    exact absurd htarget (by simp [Event.target])
  | _ => exact hclock.trans (clock_snoc_of_ne (by simp)).symm

theorem now_eq_clock (hrun : (cpsMachine auth caches).exec (auth.start caches) es = some (s, h)) :
    s.now = clock es :=
  EventMachine.exec_induction (P := fun es _ s => s.now = clock es) rfl
    (fun _ _ _ _ _ _ _ hclock hstep => now_of_move (move_of_step hstep) hclock) hrun

variable (auth caches) in
/-- In a step of the run, in this phase, the call read this time off the clock. -/
def ReadsClock (es : List Event) (id : ℕ) (sensor : SensorId) (phase : Phase) (now : Instant) :
    Prop :=
  ∃ es₁ es₂ s₁ h₁ method, es = es₁ ++ .run id :: es₂ ∧
    (cpsMachine auth caches).exec (auth.start caches) es₁ = some (s₁, h₁) ∧
    s₁.calls id = some ⟨method, sensor, phase⟩ ∧ clock es₁ = now

theorem ReadsClock.snoc {id : ℕ} {sensor : SensorId} {phase : Phase} {now : Instant}
    (hr : ReadsClock auth caches es id sensor phase now) (e : Event) :
    ReadsClock auth caches (es ++ [e]) id sensor phase now := by
  obtain ⟨es₁, es₂, s₁, h₁, method, rfl, hrun, hcall, hclock⟩ := hr
  exact ⟨es₁, es₂ ++ [e], s₁, h₁, method, by simp, hrun, hcall, hclock⟩

variable (auth caches) in
/-- The times that a phase carries were read off the clock. -/
def Phase.Stamped (es : List Event) (id : ℕ) (sensor : SensorId) : Phase → Prop
  | .probe now => ReadsClock auth caches es id sensor .check now
  | .storing entry since => ReadsClock auth caches es id sensor (.decided entry.allowed) since
  | _ => True

variable (auth caches) in
/-- The times that are shown were read off the clock. -/
def Observation.Stamped (es : List Event) : Observation → Prop
  | .hit id sensor _ now => ReadsClock auth caches es id sensor .check now
  | .stored id sensor allowed since =>
    ReadsClock auth caches es id sensor (.decided allowed) since
  | _ => True

variable (auth caches) in
/-- The account of the times. -/
structure Stamped (es : List Event) (h : List Observation) (s : State caches) : Prop where
  calls : ∀ id call, s.calls id = some call → call.phase.Stamped auth caches es id call.sensor
  shown : ∀ a ∈ h, a.Stamped auth caches es

theorem Phase.Stamped.snoc {id : ℕ} {sensor : SensorId} {phase : Phase}
    (hp : phase.Stamped auth caches es id sensor) (e : Event) :
    phase.Stamped auth caches (es ++ [e]) id sensor := by
  cases phase with
  | probe now | storing entry since => exact ReadsClock.snoc hp e
  | _ => trivial

theorem Observation.Stamped.snoc {a : Observation} (ha : a.Stamped auth caches es) (e : Event) :
    a.Stamped auth caches (es ++ [e]) := by
  cases a with
  | hit | stored => exact ReadsClock.snoc ha e
  | _ => trivial

namespace Stamped

theorem next (st : Stamped auth caches es h s) (e : Event) {id : ℕ} {x : Option Call}
    (hcalls : s'.calls = Function.update s.calls id x)
    (hphase : ∀ call, x = some call →
      call.phase.Stamped auth caches (es ++ [e]) id call.sensor)
    (hshown : ∀ a ∈ o, a.Stamped auth caches (es ++ [e])) :
    Stamped auth caches (es ++ [e]) (h ++ o) s' where
  calls id' call hcall := by
    rw [hcalls] at hcall
    by_cases hid : id' = id
    · subst hid
      rw [Function.update_self] at hcall
      exact hphase call hcall
    · rw [Function.update_of_ne hid] at hcall
      exact (st.calls id' call hcall).snoc e
  shown a ha := (List.mem_append.mp ha).elim (fun hold => (st.shown a hold).snoc e) (hshown a)

theorem step (st : Stamped auth caches es h s)
    (hrun : (cpsMachine auth caches).exec (auth.start caches) es = some (s, h)) {e : Event}
    (hmove : Move auth s e s' o) : Stamped auth caches (es ++ [e]) (h ++ o) s' := by
  have hreads : ∀ {id : ℕ} {call : Call}, s.calls id = some call →
      ReadsClock auth caches (es ++ [.run id]) id call.sensor call.phase s.now := fun hcall =>
    ⟨es, [], s, h, _, rfl, hrun, hcall, (now_eq_clock hrun).symm⟩
  cases hmove with
  | tick =>
    rw [List.append_nil]
    exact ⟨fun id call hcall => (st.calls id call hcall).snoc _,
      fun a ha => (st.shown a ha).snoc _⟩
  | call =>
    refine st.next _ rfl (fun call heq => ?_) (by simp)
    obtain rfl := Option.some.inj heq
    trivial
  | look hcall hphase =>
    refine st.next _ rfl (fun call heq => ?_) (by simp)
    obtain rfl := Option.some.inj heq
    have hread := hreads hcall
    rwa [hphase] at hread
  | @hit id call now allowed cache hcall hphase =>
    have hp := st.calls id call hcall
    rw [hphase] at hp
    exact st.next _ rfl (by simp) (List.forall_mem_singleton.mpr (ReadsClock.snoc hp _))
  | miss => exact st.next _ rfl (by simp) (List.forall_mem_singleton.mpr trivial)
  | enter | proceed | begin | pinned | ask =>
    refine st.next _ rfl (fun call heq => ?_) (by simp)
    obtain rfl := Option.some.inj heq
    trivial
  | verified | completed =>
    refine st.next _ rfl (fun call heq => ?_) (List.forall_mem_singleton.mpr trivial)
    obtain rfl := Option.some.inj heq
    trivial
  | fail => exact st.next _ rfl (by simp) (List.forall_mem_singleton.mpr trivial)
  | cancel => exact st.next _ rfl (by simp) (by simp)
  | entry hcall hphase =>
    refine st.next _ rfl (fun call heq => ?_) (by simp)
    obtain rfl := Option.some.inj heq
    have hread := hreads hcall
    rwa [hphase] at hread
  | @store id call entry since hcall hphase =>
    have hp := st.calls id call hcall
    rw [hphase] at hp
    exact st.next _ rfl (by simp)
      (List.forall_mem_cons.mpr ⟨ReadsClock.snoc hp _, List.forall_mem_singleton.mpr trivial⟩)

end Stamped

/-- **The times that a run shows are readings of its clock.**  Each is what the clock showed in
the step in which the call took its time, and not in the step that shows it. -/
theorem stamped_of_exec
    (hrun : (cpsMachine auth caches).exec (auth.start caches) es = some (s, h)) :
    Stamped auth caches es h s :=
  EventMachine.exec_induction (P := fun es h s => Stamped auth caches es h s)
    ⟨fun _ _ hcall => absurd hcall (by simp [CpsAuth.start]), by simp⟩
    (fun _ _ _ _ _ _ hes st hstep => st.step hes (move_of_step hstep)) hrun

end

/-! ## What a run guarantees -/

/-- What one step does to the cached decisions. -/
structure KeepsDecisions {caches : Caches} (s s' : State caches) (o : List Observation) : Prop where
  /-- A lookup that fails, or whose time is over, leaves the cache alone. -/
  failed : ∀ id sensor error, .answered id sensor (.error error) ∈ o → s'.cache = s.cache
  /-- Unless a decision is stored, all decisions stay, apart from those that have
  expired. -/
  kept : (∀ id sensor allowed since, .stored id sensor allowed since ∉ o) → ∀ sensor,
    caches.peek s'.cache sensor = caches.peek s.cache sensor ∨
      (caches.peek s'.cache sensor = none ∧ ∃ entry,
        caches.peek s.cache sensor = some entry ∧ entry.expired s.now = true)

theorem Entry.expired_mono {entry : Entry} {t now : Instant} (h : entry.expired t = true)
    (hle : t ≤ now) : entry.expired now = true := by
  obtain ⟨allowed, expires⟩ := entry
  cases expires with
  | none => exact h
  | some expires =>
    have hexpires : expires ≤ t := by simpa [Entry.expired] using h
    simpa [Entry.expired] using Nat.le_trans hexpires hle

theorem Accounted.keepsDecisions {auth : CpsAuth} {caches : Caches} (hc : caches.Lawful)
    {s s' : State caches} {h o : List Observation} (a : Accounted auth h s) {e : Event}
    (hmove : Move auth s e s' o) : KeepsDecisions s s' o := by
  have hvisit : ∀ {id : ℕ} {call : Call} {now : Instant} {result : Option Bool}
      {cache : caches.Cache}, s.calls id = some call → call.phase = .probe now →
      s.cached call.sensor now = (result, cache) → ∀ sensor,
        caches.peek cache sensor = caches.peek s.cache sensor ∨
          (caches.peek cache sensor = none ∧ ∃ entry,
            caches.peek s.cache sensor = some entry ∧ entry.expired s.now = true) := by
    intro id call now result cache hcall hphase hcached sensor
    have hle := (a.call id call hcall).2
    rw [hphase] at hle
    obtain ⟨-, -, hpeek, -⟩ := cached_spec hc hcached
    refine (hpeek sensor).imp_right fun ⟨hnone, entry, hfound, hexpired⟩ => ?_
    exact ⟨hnone, entry, hfound, Entry.expired_mono hexpired hle⟩
  cases hmove with
  | hit hcall hphase hcached => exact ⟨by simp, fun _ => hvisit hcall hphase hcached⟩
  | miss hcall hphase hcached => exact ⟨by simp, fun _ => hvisit hcall hphase hcached⟩
  | enter hcall hphase hcached => exact ⟨by simp, fun _ => hvisit hcall hphase hcached⟩
  | @store id call entry since =>
    exact ⟨by simp,
      fun hnone => absurd List.mem_cons_self (hnone id call.sensor entry.allowed since)⟩
  | _ => exact ⟨fun _ _ _ _ => rfl, fun _ _ => .inl rfl⟩

/-- What a run of the policy guarantees. -/
structure CacheSound (auth : CpsAuth) {caches : Caches} (es : List Event) (s : State caches)
    (h : List Observation) : Prop where
  /-- Every answer comes from a lookup, and every lookup follows a verification. -/
  justified : EventMachine.Justified (Reason auth) h
  bounded : caches.len s.cache ≤ auth.capacity
  remembered : ∀ sensor entry, caches.peek s.cache sensor = some entry →
    Remembered auth h sensor entry
  /-- Only what is stored, or expires, changes a cached decision. -/
  keepsDecisions : ∀ es₁ e es₂ s₁ h₁ s₂ o, es = es₁ ++ e :: es₂ →
    (cpsMachine auth caches).exec (auth.start caches) es₁ = some (s₁, h₁) →
    auth.step s₁ e = some (s₂, o) → KeepsDecisions s₁ s₂ o
  /-- The times of what is remembered and answered from memory are those of the clock. -/
  stamped : ∀ a ∈ h, a.Stamped auth caches es

/-- **Cached decisions are sound.**  In every run, an allow is justified by a lookup of
the same sensor that returned it, and a deny by one of this call, or by one stored
less than the time denials are kept before; lookups that fail leave no trace; the
cache stays within its capacity; and no lookup returns a decision before the reader
was verified. -/
theorem cps_cache_sound (auth : CpsAuth) (caches : Caches) (hc : caches.Lawful)
    (es : List Event) (s : State caches) (h : List Observation)
    (hrun : (cpsMachine auth caches).exec (auth.start caches) es = some (s, h)) :
    CacheSound auth es s h := by
  obtain ⟨a, hjust⟩ := accounted_of_exec hc hrun
  refine ⟨hjust, a.len, a.entry, fun es₁ e es₂ s₁ h₁ s₂ o _ hrun₁ hstep => ?_,
    (stamped_of_exec hrun).shown⟩
  exact (accounted_of_exec hc hrun₁).1.keepsDecisions hc (move_of_step hstep)

/-! Two sensors and a cache for one of them.  The first verification fails, and with it
the first call; the other sensor is allowed; then the first one is denied, which
drops the allow and is itself forgotten after some time. -/

def smallCps : CpsAuth := ⟨1, 50, 1, by decide⟩

def sensorOf (n : UInt8) : SensorId := ⟨⟨List.replicate 32 n, by simp [sensorIdLen]⟩⟩

def twoSensors : List Event :=
  [.call .authorize (sensorOf 1), .run 0, .run 0, .run 0, .call .authorize (sensorOf 2), .run 1,
    .run 1, .verify 0 (.error (.unavailable "synchronizing")), .run 1, .verify 1 (.ok ()),
    .snapshot 1 (.ok ()), .nodeOf 1 (.ok (some 3)), .lineage 1 (.ok (.parent 1)), .run 1, .run 1,
    .call .tryAuthorize (sensorOf 2), .run 2, .run 2, .call .authorize (sensorOf 1), .run 3, .run 3,
    .run 3, .snapshot 3 (.ok ()), .nodeOf 3 (.ok none), .run 3, .run 3, .tick 20,
    .call .tryAuthorize (sensorOf 1), .run 4, .run 4, .call .tryAuthorize (sensorOf 2), .run 5,
    .run 5, .tick 60, .call .tryAuthorize (sensorOf 1), .run 6, .run 6]

theorem cps_cache_sound_twoSensors :
    ∃ s h, (cpsMachine smallCps (recencyCache SensorId Entry)).exec
        (smallCps.start (recencyCache SensorId Entry)) twoSensors = some (s, h) ∧
      h = [.answered 0 (sensorOf 1) (.error (.unavailable "synchronizing")), .verified 1,
        .completed 1 (sensorOf 2) true, .stored 1 (sensorOf 2) true 0,
        .answered 1 (sensorOf 2) (.ok true), .hit 2 (sensorOf 2) true 0,
        .completed 3 (sensorOf 1) false, .stored 3 (sensorOf 1) false 0,
        .answered 3 (sensorOf 1) (.ok false), .hit 4 (sensorOf 1) false 20, .missed 5 (sensorOf 2),
        .missed 6 (sensorOf 1)] ∧
      CacheSound smallCps twoSensors s h := by
  have hshown : ((cpsMachine smallCps (recencyCache SensorId Entry)).exec
      (smallCps.start (recencyCache SensorId Entry)) twoSensors).map Prod.snd =
      some [.answered 0 (sensorOf 1) (.error (.unavailable "synchronizing")), .verified 1,
        .completed 1 (sensorOf 2) true, .stored 1 (sensorOf 2) true 0,
        .answered 1 (sensorOf 2) (.ok true), .hit 2 (sensorOf 2) true 0,
        .completed 3 (sensorOf 1) false, .stored 3 (sensorOf 1) false 0,
        .answered 3 (sensorOf 1) (.ok false), .hit 4 (sensorOf 1) false 20, .missed 5 (sensorOf 2),
        .missed 6 (sensorOf 1)] := by
    decide +kernel
  obtain ⟨⟨s, h⟩, hrun, hh⟩ := Option.map_eq_some_iff.mp hshown
  exact ⟨s, h, hrun, hh, cps_cache_sound smallCps (recencyCache SensorId Entry)
    (recencyCache_lawful SensorId Entry) twoSensors s h hrun⟩

end Auth
end Robins
