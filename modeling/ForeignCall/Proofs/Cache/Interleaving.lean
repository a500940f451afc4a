import ForeignCall.Proofs.Cache.History

/-!
# Interleaved gets

Several clients get an invoker from one cache at the same time. A get is a sequence of single
accesses, and between any two of them other clients may go on or the cache may be cleared: two
clients can both find nothing under a key, compile it both, and enter it one after the other. The
steps of a get are those of `Cache.get`; taken without a break they are it.

Whatever the schedule, an invoker that is compiled and not yet entered has an identity no get was
given. The history therefore keeps saying which gets share an invoker, and the counters keep up
with the entries.
-/

namespace ForeignCall.Cache

/-- How far a get has come. -/
inductive Phase where
  /-- Nothing is done yet. -/
  | waiting
  /-- The entries had an invoker; the hit is not counted yet. -/
  | found (shared : Shared Invoker)
  /-- The entries had none. -/
  | absent
  /-- The signature is compiled. -/
  | compiled (fresh : Shared Invoker)
  /-- The miss is counted, the invoker not entered yet. -/
  | counted (fresh : Shared Invoker)
  /-- The get has returned. -/
  | finished (result : Except Failure (Shared Invoker))

/-- A get that is under way. -/
structure Client where
  key : CacheKey
  phase : Phase

/-- The next access of a get: what it does to the entries, the get and the cache afterwards. -/
def Client.advance (client : Client) (c : Cache) : Event × Client × Cache :=
  match client.phase with
  | .waiting =>
    match c.lookup client.key with
    | some shared => (.gave client.key shared, ⟨client.key, .found shared⟩, c)
    | none => (.silent, ⟨client.key, .absent⟩, c)
  | .found shared => (.silent, ⟨client.key, .finished (.ok shared)⟩, c.countHit)
  | .absent =>
    match client.key.compile with
    | .error failure =>
      (.refused client.key failure, ⟨client.key, .finished (.error failure)⟩, c)
    | .ok inv => (.silent, ⟨client.key, .compiled (c.issue inv).1⟩, (c.issue inv).2)
  | .compiled fresh => (.silent, ⟨client.key, .counted fresh⟩, c.countMiss)
  | .counted fresh =>
    let (shared, c) := c.insertIfAbsent client.key fresh
    (.gave client.key shared, ⟨client.key, .finished (.ok shared)⟩, c)
  | .finished _ => (.silent, client, c)

/-- A cache and the gets that use it. -/
structure Race where
  cache : Cache
  clients : List Client

/-- Whose turn it is. -/
inductive Turn where
  | client (i : Nat)
  | clear

namespace Race

/-- Nothing is cached and no get has begun. -/
def start (keys : List CacheKey) : Race := ⟨empty, keys.map (⟨·, .waiting⟩)⟩

/-- A client takes its next step, or the cache is cleared. -/
def step (r : Race) : Turn → Event × Race
  | .client i =>
    match r.clients[i]? with
    | some client =>
      let (e, client, c) := client.advance r.cache
      (e, ⟨c, r.clients.set i client⟩)
    | none => (.silent, r)
  | .clear => (.cleared, ⟨r.cache.clear, r.clients⟩)

/-- What the steps of a schedule did. -/
def events (keys : List CacheKey) (schedule : List Turn) : List Event :=
  (trace step (start keys) schedule).1

/-- The race after the steps of a schedule. -/
def after (keys : List CacheKey) (schedule : List Turn) : Race :=
  (trace step (start keys) schedule).2

end Race

/-! ### What there is to see of a get -/

namespace Client

/-- The invoker that is compiled and not yet entered, with its key. -/
def pending? : Client → Option (CacheKey × Shared Invoker)
  | ⟨key, .compiled fresh⟩ => some (key, fresh)
  | ⟨key, .counted fresh⟩ => some (key, fresh)
  | _ => none

/-- The invoker the entries gave to the get, with its key. -/
def given? : Client → Option (CacheKey × Shared Invoker)
  | ⟨key, .found shared⟩ => some (key, shared)
  | ⟨key, .finished (.ok shared)⟩ => some (key, shared)
  | _ => none

/-- What the get returned; none while it is under way. -/
def result? : Client → Option (Except Failure (Shared Invoker))
  | ⟨_, .finished result⟩ => some result
  | _ => none

/-- Whether the miss is counted and the invoker not entered yet. -/
def isCounted : Client → Bool
  | ⟨_, .counted _⟩ => true
  | _ => false

/-- Whether the get returned an invoker. -/
def isServed : Client → Bool
  | ⟨_, .finished (.ok _)⟩ => true
  | _ => false

end Client

namespace Race

/-- The invoker a client has compiled and not yet entered, with its key. -/
def pending? (r : Race) (i : Nat) : Option (CacheKey × Shared Invoker) :=
  (r.clients[i]?).bind Client.pending?

/-- The invoker the entries gave to a client, with its key. -/
def given? (r : Race) (i : Nat) : Option (CacheKey × Shared Invoker) :=
  (r.clients[i]?).bind Client.given?

/-- What a client's get returned; none while it is under way. -/
def result? (r : Race) (i : Nat) : Option (Except Failure (Shared Invoker)) :=
  (r.clients[i]?).bind Client.result?

end Race

/-! ### One step -/

/-- All that the next access of a get can do. -/
inductive Client.Advances : Client → Cache → Event → Client → Cache → Prop
  | hit {key c shared} (hl : c.lookup key = some shared) :
      Advances ⟨key, .waiting⟩ c (.gave key shared) ⟨key, .found shared⟩ c
  | absent {key c} (hl : c.lookup key = none) :
      Advances ⟨key, .waiting⟩ c .silent ⟨key, .absent⟩ c
  | countHit {key c shared} :
      Advances ⟨key, .found shared⟩ c .silent ⟨key, .finished (.ok shared)⟩ c.countHit
  | refused {key c failure} (hc : key.compile = .error failure) :
      Advances ⟨key, .absent⟩ c (.refused key failure) ⟨key, .finished (.error failure)⟩ c
  | compile {key c inv} (hc : key.compile = .ok inv) :
      Advances ⟨key, .absent⟩ c .silent ⟨key, .compiled (c.issue inv).1⟩ (c.issue inv).2
  | countMiss {key c fresh} :
      Advances ⟨key, .compiled fresh⟩ c .silent ⟨key, .counted fresh⟩ c.countMiss
  | insert {key c fresh} :
      Advances ⟨key, .counted fresh⟩ c (.gave key (c.insertIfAbsent key fresh).1)
        ⟨key, .finished (.ok (c.insertIfAbsent key fresh).1)⟩ (c.insertIfAbsent key fresh).2
  | finished {key c result} :
      Advances ⟨key, .finished result⟩ c .silent ⟨key, .finished result⟩ c

/-- The next access of a get does one of these. -/
theorem Client.advances (client : Client) (c : Cache) :
    client.Advances c (client.advance c).1 (client.advance c).2.1 (client.advance c).2.2 := by
  obtain ⟨key, phase⟩ := client
  cases phase with
  | waiting =>
    simp only [advance]
    cases hl : c.lookup key with
    | some shared => exact .hit hl
    | none => exact .absent hl
  | found shared => exact .countHit
  | absent =>
    simp only [advance]
    cases hc : key.compile with
    | error failure => exact .refused hc
    | ok inv => exact .compile hc
  | compiled fresh => exact .countMiss
  | counted fresh => exact .insert
  | finished result => exact .finished

/-- All that a turn can do. -/
inductive Race.Steps (r : Race) : Turn → Event → Race → Prop
  | advance {i client e client' c'} (hi : r.clients[i]? = some client)
      (ha : client.Advances r.cache e client' c') :
      Steps r (.client i) e ⟨c', r.clients.set i client'⟩
  | nobody {i} (hi : r.clients[i]? = none) : Steps r (.client i) .silent r
  | clear : Steps r .clear .cleared ⟨r.cache.clear, r.clients⟩

/-- A turn does one of these. -/
theorem Race.steps (r : Race) (turn : Turn) : r.Steps turn (r.step turn).1 (r.step turn).2 := by
  cases turn with
  | clear => exact .clear
  | client i =>
    simp only [step]
    cases hi : r.clients[i]? with
    | none => exact .nobody hi
    | some client => exact .advance hi (client.advances r.cache)

/-- A client's get without a break between its accesses. -/
def Client.advanceAlone (run : Client × Cache) : Client × Cache := (run.1.advance run.2).2

/-- A get whose accesses follow each other is `Cache.get`; it takes at most four of them. -/
theorem Client.alone_eq_get (key : CacheKey) (c : Cache) :
    advanceAlone (advanceAlone (advanceAlone (advanceAlone (⟨key, .waiting⟩, c)))) =
      (⟨key, .finished (c.get key).1⟩, (c.get key).2) := by
  cases hl : c.lookup key with
  | some shared => simp only [advanceAlone, advance, get, hl]
  | none =>
    cases hc : key.compile with
    | error failure => simp only [advanceAlone, advance, get, hl, hc]
    | ok inv => simp only [advanceAlone, advance, get, hl, hc]

variable {α : Type} {client client' : Client} {c c' : Cache} {e : Event} {h : List Event}
  {r r' : Race} {key k l : CacheKey} {shared s : Shared Invoker} {i j t u : Nat} {turn : Turn}
  {keys : List CacheKey} {schedule : List Turn}

/-! ### Clients -/

/-- What no waiting client shows is not there to see before the first step. -/
theorem Race.bind_start (keys : List CacheKey) (i : Nat) {f : Client → Option α}
    (hf : ∀ key, f ⟨key, .waiting⟩ = none) : ((start keys).clients[i]?).bind f = none := by
  simp only [start, List.getElem?_map]
  cases keys[i]? with
  | none => rfl
  | some key => exact hf key

/-- Before the first step all clients are waiting. -/
theorem Race.countP_start (keys : List CacheKey) {p : Client → Bool}
    (hp : ∀ key, p ⟨key, .waiting⟩ = false) : (start keys).clients.countP p = 0 := by
  rw [List.countP_eq_zero]
  intro client hclient
  obtain ⟨key, -, rfl⟩ := List.mem_map.mp hclient
  rw [hp key]
  exact Bool.false_ne_true

/-- What there is to see of the clients after one of them went on. -/
theorem bind_getElem?_set {clients : List Client} (hi : clients[i]? = some client)
    (client' : Client) (f : Client → Option α) (j : Nat) :
    ((clients.set i client')[j]?).bind f = if j = i then f client' else (clients[j]?).bind f := by
  have hlt : i < clients.length := (List.getElem?_eq_some_iff.mp hi).1
  by_cases hj : j = i
  · subst hj
    simp [hlt]
  · rw [List.getElem?_set_ne (Ne.symm hj), if_neg hj]

/-- How the number of clients of a kind changes when one of them goes on. -/
theorem countP_set_add {clients : List Client} (hi : clients[i]? = some client)
    (client' : Client) (p : Client → Bool) :
    (clients.set i client').countP p + (p client).toNat =
      clients.countP p + (p client').toNat := by
  obtain ⟨hlt, rfl⟩ := List.getElem?_eq_some_iff.mp hi
  rw [List.countP_set hlt]
  cases hp : p clients[i] with
  | true =>
    have hpos : 0 < clients.countP p :=
      List.countP_pos_iff.mpr ⟨clients[i], List.getElem_mem hlt, hp⟩
    cases p client' <;> simp <;> omega
  | false => cases p client' <;> simp

/-! ### Pending invokers -/

/-- An invoker that is compiled for a key, issued and not given to any get. -/
structure Fresh (c : Cache) (h : List Event) (key : CacheKey) (shared : Shared Invoker) :
    Prop where
  compile : key.compile = .ok shared.value
  issued : shared.identity < c.issued
  ungiven : ∀ k s, .gave k s ∈ h → s.identity ≠ shared.identity

/-- An invoker stays fresh unless it is given out. -/
theorem Fresh.concat (hf : Fresh c h key shared) (hissued : c.issued ≤ c'.issued)
    (he : ∀ k s, e = .gave k s → s.identity ≠ shared.identity) :
    Fresh c' (h ++ [e]) key shared where
  compile := hf.compile
  issued := Nat.lt_of_lt_of_le hf.issued hissued
  ungiven k s hs := (gave_mem_concat_iff.mp hs).elim (hf.ungiven k s) (he k s)

/-- The entries are what the history left behind, and the invokers that are pending are fresh and
apart from each other. -/
structure Coherent (r : Race) (h : List Event) : Prop where
  reflects : Reflects r.cache h
  fresh : ∀ i k s, r.pending? i = some (k, s) → Fresh r.cache h k s
  apart : ∀ i j k l s s', i ≠ j → r.pending? i = some (k, s) → r.pending? j = some (l, s') →
    s.identity ≠ s'.identity

namespace Coherent

/-- Nothing is pending before the first step. -/
theorem start (keys : List CacheKey) : Coherent (Race.start keys) [] := by
  have hnone (i : Nat) : (Race.start keys).pending? i = none :=
    Race.bind_start keys i fun _ ↦ rfl
  exact ⟨.start, by simp [hnone], by simp [hnone]⟩

/-- A step that makes nothing pending and gives out nothing that stays pending. -/
theorem settle (hc : Coherent r h) (hr : Reflects r'.cache (h ++ [e]))
    (hissued : r.cache.issued ≤ r'.cache.issued)
    (hpending : ∀ i k s, r'.pending? i = some (k, s) → r.pending? i = some (k, s) ∧
      ∀ l s', e = .gave l s' → s'.identity ≠ s.identity) :
    Coherent r' (h ++ [e]) where
  reflects := hr
  fresh i k s hi :=
    (hc.fresh i k s (hpending i k s hi).1).concat hissued (hpending i k s hi).2
  apart i j k l s s' hij hi hj :=
    hc.apart i j k l s s' hij (hpending i k s hi).1 (hpending j l s' hj).1

/-- A client compiles its signature. The identity it takes is one no other invoker has. -/
theorem compile {inv : Invoker} (hc : Coherent r h) (hi : r.clients[i]? = some ⟨key, .absent⟩)
    (hcompile : key.compile = .ok inv) :
    Coherent ⟨(r.cache.issue inv).2, r.clients.set i ⟨key, .compiled (r.cache.issue inv).1⟩⟩
      (h ++ [.silent]) := by
  have hissued : r.cache.issued ≤ (r.cache.issue inv).2.issued := Nat.le_succ _
  have hpending :=
    bind_getElem?_set hi ⟨key, .compiled (r.cache.issue inv).1⟩ Client.pending?
  have hnew : Fresh (r.cache.issue inv).2 (h ++ [.silent]) key (r.cache.issue inv).1 :=
    { compile := hcompile
      issued := Nat.lt_succ_self _
      ungiven := fun k s hs ↦ by
        rw [gave_mem_concat_iff, or_iff_left (by simp)] at hs
        exact Nat.ne_of_lt (hc.reflects.issued k s hs) }
  refine ⟨(hc.reflects.quiet (by simp) (by simp)).of_entries_eq rfl hissued, ?_, ?_⟩
  · intro j k s hj
    simp only [Race.pending?, hpending] at hj
    split at hj
    · cases hj
      exact hnew
    · exact (hc.fresh j k s hj).concat hissued (by simp)
  · intro m n k l s s' hmn hm hn
    simp only [Race.pending?, hpending] at hm hn
    split at hm <;> split at hn
    · omega
    · cases hm
      exact Nat.ne_of_gt (hc.fresh n l s' hn).issued
    · cases hn
      exact Nat.ne_of_lt (hc.fresh m k s hm).issued
    · exact hc.apart m n k l s s' hmn hm hn

/-- A client that goes on without compiling has at most pending what it had. -/
theorem advance (hc : Coherent r h) (hi : r.clients[i]? = some client)
    (hr : Reflects c' (h ++ [e])) (hissued : r.cache.issued ≤ c'.issued)
    (hsub : client'.pending? = none ∨ client'.pending? = client.pending? ∧ e = .silent)
    (hothers : ∀ j k l s s', j ≠ i → r.pending? j = some (k, s) → e = .gave l s' →
      s'.identity ≠ s.identity) :
    Coherent ⟨c', r.clients.set i client'⟩ (h ++ [e]) := by
  refine hc.settle hr hissued fun j k s hj ↦ ?_
  simp only [Race.pending?, bind_getElem?_set hi] at hj
  split at hj
  · next hji =>
    rcases hsub with hnone | ⟨hsame, rfl⟩
    · rw [hnone] at hj
      cases hj
    · rw [hsame] at hj
      rw [Race.pending?, hji, hi]
      exact ⟨hj, by simp⟩
  · next hji => exact ⟨hj, fun l s' he ↦ hothers j k l s s' hji hj he⟩

/-- An invoker that is found under a key is apart from those that are pending. -/
theorem ne_of_lookup (hc : Coherent r h) (hl : r.cache.lookup key = some shared)
    (hi : r.pending? i = some (k, s)) : shared.identity ≠ s.identity :=
  (hc.fresh i k s hi).ungiven key shared ((hc.reflects.lookup_iff key shared).mp hl).mem

/-- A client enters what it compiled, or adopts what another one entered. -/
theorem insert (hc : Coherent r h) (hi : r.clients[i]? = some ⟨key, .counted shared⟩) :
    Coherent ⟨(r.cache.insertIfAbsent key shared).2,
        r.clients.set i ⟨key, .finished (.ok (r.cache.insertIfAbsent key shared).1)⟩⟩
      (h ++ [.gave key (r.cache.insertIfAbsent key shared).1]) := by
  have hown : r.pending? i = some (key, shared) := by
    rw [Race.pending?, hi]
    rfl
  have hfresh := hc.fresh i key shared hown
  refine hc.advance hi (hc.reflects.insertIfAbsent hfresh.compile hfresh.issued hfresh.ungiven)
    (Nat.le_of_eq (r.cache.issued_insertIfAbsent key shared).symm) (.inl rfl) ?_
  rintro j k l s s' hji hj he
  cases he
  -- What is given out is another client's, entered before, or the own one; neither is pending
  -- anywhere else.
  cases hl : r.cache.lookup key with
  | some present =>
    rw [insertIfAbsent_of_some hl]
    exact hc.ne_of_lookup hl hj
  | none =>
    rw [insertIfAbsent_of_none hl]
    exact hc.apart i j key k shared s (Ne.symm hji) hown hj

/-- Every step keeps the entries and the pending invokers coherent. -/
theorem step (hc : Coherent r h) (hs : r.Steps turn e r') : Coherent r' (h ++ [e]) := by
  cases hs with
  | clear => exact hc.settle hc.reflects.clear (Nat.le_refl _) (by simp [Race.pending?])
  | nobody hi =>
    exact hc.settle (hc.reflects.quiet (by simp) (by simp)) (Nat.le_refl _) (by simp)
  | advance hi ha =>
    have hquiet : Reflects r.cache (h ++ [.silent]) := hc.reflects.quiet (by simp) (by simp)
    cases ha with
    | hit hl =>
      refine hc.advance hi (hc.reflects.hit hl) (Nat.le_refl _) (.inl rfl) ?_
      rintro j k l s s' - hj he
      cases he
      exact hc.ne_of_lookup hl hj
    | absent hl => exact hc.advance hi hquiet (Nat.le_refl _) (.inl rfl) (by simp)
    | countHit =>
      exact hc.advance hi (hquiet.of_entries_eq rfl (Nat.le_refl _)) (Nat.le_refl _) (.inl rfl)
        (by simp)
    | refused hcompile =>
      exact hc.advance hi (hc.reflects.quiet (by simp) (by simp)) (Nat.le_refl _) (.inl rfl)
        (by simp)
    | compile hcompile => exact hc.compile hi hcompile
    | countMiss =>
      exact hc.advance hi (hquiet.of_entries_eq rfl (Nat.le_refl _)) (Nat.le_refl _)
        (.inr ⟨rfl, rfl⟩) (by simp)
    | insert => exact hc.insert hi
    | finished => exact hc.advance hi hquiet (Nat.le_refl _) (.inl rfl) (by simp)

end Coherent

/-! ### Counters -/

/-- The misses are counted ahead of the entries. Every get that was served is counted, and so are
those that counted their miss and have not entered their invoker. -/
structure Counted (r : Race) : Prop where
  size_le : r.cache.size + r.clients.countP Client.isCounted ≤ r.cache.misses
  total : r.cache.hits + r.cache.misses =
    r.clients.countP Client.isServed + r.clients.countP Client.isCounted

namespace Counted

/-- Nothing is counted before the first step. -/
theorem start (keys : List CacheKey) : Counted (Race.start keys) := by
  have hcounted : (Race.start keys).clients.countP Client.isCounted = 0 :=
    Race.countP_start keys fun _ ↦ rfl
  have hserved : (Race.start keys).clients.countP Client.isServed = 0 :=
    Race.countP_start keys fun _ ↦ rfl
  constructor
  · rw [hcounted]
    exact Nat.le_refl 0
  · rw [hcounted, hserved]
    rfl

/-- What a client that goes on does to the counters. -/
theorem advance (hc : Counted r) (hi : r.clients[i]? = some client)
    (hsize : c'.size + client'.isCounted.toNat + r.cache.misses ≤
      r.cache.size + client.isCounted.toNat + c'.misses)
    (htotal : c'.hits + c'.misses + client.isServed.toNat + client.isCounted.toNat =
      r.cache.hits + r.cache.misses + client'.isServed.toNat + client'.isCounted.toNat) :
    Counted ⟨c', r.clients.set i client'⟩ := by
  have hcounted := countP_set_add hi client' Client.isCounted
  have hserved := countP_set_add hi client' Client.isServed
  have hbefore := hc.size_le
  have hsum := hc.total
  constructor
  · show c'.size + (r.clients.set i client').countP Client.isCounted ≤ c'.misses
    omega
  · show c'.hits + c'.misses = (r.clients.set i client').countP Client.isServed +
      (r.clients.set i client').countP Client.isCounted
    omega

/-- An insertion makes at most one more entry. -/
theorem size_insertIfAbsent_le (c : Cache) (key : CacheKey) (shared : Shared Invoker) :
    (c.insertIfAbsent key shared).2.size ≤ c.size + 1 := by
  rw [size_insertIfAbsent]
  split
  · exact Nat.le_succ _
  · exact Nat.le_refl _

/-- Every step keeps the counters. -/
theorem step (hc : Counted r) (hs : r.Steps turn e r') : Counted r' := by
  cases hs with
  | clear =>
    exact ⟨Nat.le_trans (Nat.add_le_add_right (Nat.zero_le _) _) hc.size_le, hc.total⟩
  | nobody => exact hc
  | advance hi ha =>
    cases ha with
    | hit | absent | refused | finished => exact hc.advance hi (Nat.le_refl _) rfl
    | compile => exact hc.advance hi (Nat.le_refl _) rfl
    | countHit =>
      refine hc.advance hi (Nat.le_refl _) ?_
      simp only [countHit, Client.isServed, Client.isCounted, Bool.toNat_true, Bool.toNat_false]
      omega
    | countMiss =>
      refine hc.advance hi ?_ ?_
      · simp only [countMiss, size, Client.isCounted, Bool.toNat_true, Bool.toNat_false]
        omega
      · simp only [countMiss, Client.isServed, Client.isCounted, Bool.toNat_true,
          Bool.toNat_false]
        omega
    | @insert key _ fresh =>
      have hle := size_insertIfAbsent_le r.cache key fresh
      refine hc.advance hi ?_ ?_
      · simp only [misses_insertIfAbsent, Client.isCounted, Bool.toNat_true, Bool.toNat_false]
        omega
      · simp only [misses_insertIfAbsent, hits_insertIfAbsent, Client.isServed, Client.isCounted,
          Bool.toNat_true, Bool.toNat_false]

end Counted

/-! ### Records -/

/-- At step `t` the entries gave client `i` its invoker. -/
def GivenAt (schedule : List Turn) (h : List Event) (i t : Nat) (key : CacheKey)
    (shared : Shared Invoker) : Prop :=
  schedule[t]? = some (.client i) ∧ h[t]? = some (.gave key shared)

/-- Nothing is given before the first step. -/
theorem not_givenAt_nil : ¬ GivenAt [] [] i t key shared := by
  simp [GivenAt]

/-- What one more step gives. -/
theorem givenAt_concat_iff (hlength : h.length = schedule.length) :
    GivenAt (schedule ++ [turn]) (h ++ [e]) i t key shared ↔
      GivenAt schedule h i t key shared ∨
        t = schedule.length ∧ turn = .client i ∧ e = .gave key shared := by
  unfold GivenAt
  rw [getElem?_concat_eq_some_iff, getElem?_concat_eq_some_iff, hlength]
  constructor
  · rintro ⟨ht | ⟨rfl, hturn⟩, he | ⟨ht', he⟩⟩
    · exact .inl ⟨ht, he⟩
    · exact absurd (List.getElem?_eq_some_iff.mp ht).1 (Nat.not_lt_of_ge (Nat.le_of_eq ht'.symm))
    · exact absurd (hlength ▸ (List.getElem?_eq_some_iff.mp he).1) (Nat.lt_irrefl _)
    · exact .inr ⟨rfl, hturn, he⟩
  · rintro (⟨ht, he⟩ | ⟨rfl, hturn, he⟩)
    · exact ⟨.inl ht, .inl he⟩
    · exact ⟨.inr ⟨rfl, hturn⟩, .inr ⟨rfl, he⟩⟩

/-- A get that goes on is given an invoker where it had none, or nothing changes for it. -/
theorem Client.Advances.given (ha : client.Advances c e client' c') :
    (∃ shared, e = .gave client.key shared ∧ client.given? = none ∧
      client'.given? = some (client.key, shared)) ∨
    (∀ key shared, e ≠ .gave key shared) ∧ client'.given? = client.given? := by
  cases ha with
  | hit | insert => exact .inl ⟨_, rfl, rfl, rfl⟩
  | absent | countHit | refused | compile | countMiss | finished => exact .inr ⟨by simp, rfl⟩

/-- A step gives an invoker to the client whose turn it is, which had none, or nothing to any
client. -/
theorem Race.Steps.given (hs : r.Steps turn e r') :
    (∃ i key shared, turn = .client i ∧ e = .gave key shared ∧ r.given? i = none ∧
      ∀ j, r'.given? j = if j = i then some (key, shared) else r.given? j) ∨
    (∀ key shared, e ≠ .gave key shared) ∧ ∀ j, r'.given? j = r.given? j := by
  cases hs with
  | clear => exact .inr ⟨by simp, fun _ ↦ rfl⟩
  | nobody => exact .inr ⟨by simp, fun _ ↦ rfl⟩
  | @advance i client _ client' _ hi ha =>
    have hset := bind_getElem?_set hi client' Client.given?
    have hown : r.given? i = client.given? := by
      rw [given?, hi]
      rfl
    rcases ha.given with ⟨shared, rfl, hnone, hsome⟩ | ⟨he, hsame⟩
    · refine .inl ⟨i, client.key, shared, rfl, rfl, hown.trans hnone, fun j ↦ ?_⟩
      rw [given?, hset, hsome]
      rfl
    · refine .inr ⟨he, fun j ↦ ?_⟩
      rw [given?, hset, hsame, ← hown]
      split
      · next hj => rw [hj]
      · rfl

/-- No step changes what a client asks for. -/
theorem Race.Steps.map_key (hs : r.Steps turn e r') (j : Nat) :
    (r'.clients[j]?).map Client.key = (r.clients[j]?).map Client.key := by
  cases hs with
  | clear => rfl
  | nobody => rfl
  | @advance i client _ client' _ hi ha =>
    have hkey : client'.key = client.key := by cases ha <;> rfl
    rw [Option.map_eq_bind, Option.map_eq_bind, bind_getElem?_set hi client']
    split
    · next hj => rw [hj, hi, Function.comp_apply, hkey, Option.bind_some, Function.comp_apply]
    · rfl

/-- The entries are dropped by a clear alone. -/
theorem Race.Steps.cleared_iff (hs : r.Steps turn e r') : e = .cleared ↔ turn = .clear := by
  cases hs with
  | clear => simp
  | nobody => simp
  | advance hi ha => cases ha <;> simp

/-- A get returns the error of its signature or had returned before. -/
theorem Race.Steps.refused {failure : Failure} (hs : r.Steps turn e r')
    (hclient : client ∈ r'.clients) (hresult : client.result? = some (.error failure)) :
    client ∈ r.clients ∨ client.key.compile = .error failure := by
  cases hs with
  | clear => exact .inl hclient
  | nobody => exact .inl hclient
  | advance hi ha =>
    rcases List.mem_or_eq_of_mem_set hclient with hold | rfl
    · exact .inl hold
    · cases ha with
      | refused hcompile =>
        cases hresult
        exact .inr hcompile
      | finished => exact .inl (List.mem_of_getElem? hi)
      | hit | absent | countHit | compile | countMiss | insert => cases hresult

/-- The steps of a schedule are recorded one by one: which client was given what, and when. -/
structure Recorded (keys : List CacheKey) (schedule : List Turn) (h : List Event) (r : Race) :
    Prop where
  keys : ∀ i : Nat, (r.clients[i]?).map Client.key = keys[i]?
  length : h.length = schedule.length
  cleared_iff : ∀ t : Nat, h[t]? = some .cleared ↔ schedule[t]? = some .clear
  given_iff : ∀ i key shared,
    (∃ t, GivenAt schedule h i t key shared) ↔ r.given? i = some (key, shared)
  once : ∀ i t u key shared key' shared', GivenAt schedule h i t key shared →
    GivenAt schedule h i u key' shared' → t = u
  refused : ∀ client ∈ r.clients, ∀ failure, client.result? = some (.error failure) →
    client.key.compile = .error failure

namespace Recorded

/-- Nothing is recorded before the first step. -/
theorem start (keys : List CacheKey) : Recorded keys [] [] (Race.start keys) where
  keys i := by
    simp only [Race.start, List.getElem?_map]
    cases keys[i]? <;> rfl
  length := rfl
  cleared_iff := by simp
  given_iff i key shared := by
    have hnone : (Race.start keys).given? i = none := Race.bind_start keys i fun _ ↦ rfl
    simp [hnone, not_givenAt_nil]
  once i t u key shared key' shared' h := absurd h not_givenAt_nil
  refused client hclient failure hresult := by
    obtain ⟨key, -, rfl⟩ := List.mem_map.mp hclient
    cases hresult

/-- Every step is recorded. -/
theorem step (hr : Recorded keys schedule h r) (hs : r.Steps turn e r') :
    Recorded keys (schedule ++ [turn]) (h ++ [e]) r' where
  keys i := by rw [hs.map_key, hr.keys]
  length := by simp [hr.length]
  cleared_iff t := by
    rw [getElem?_concat_eq_some_iff, getElem?_concat_eq_some_iff, hr.cleared_iff, hr.length,
      hs.cleared_iff]
  given_iff i key shared := by
    simp only [givenAt_concat_iff hr.length, exists_or, hr.given_iff, exists_and_right,
      exists_eq, true_and]
    rcases hs.given with ⟨j, k, s, rfl, rfl, hnone, hgiven⟩ | ⟨he, hgiven⟩
    · rw [hgiven]
      by_cases hij : i = j
      · subst hij
        simp [hnone]
      · simp [hij, Ne.symm hij]
    · simp [hgiven, he]
  once i t u key shared key' shared' ht hu := by
    -- A client that is given an invoker now was given none before.
    have hbefore : ∀ v k s k' s', GivenAt schedule h i v k s → turn = .client i →
        e ≠ .gave k' s' := by
      rintro v k s k' s' hv rfl rfl
      have hsome := (hr.given_iff i k s).mp ⟨v, hv⟩
      rcases hs.given with ⟨j, _, _, hturn, -, hnone, -⟩ | ⟨he, -⟩
      · cases hturn
        rw [hnone] at hsome
        cases hsome
      · exact he _ _ rfl
    rcases (givenAt_concat_iff hr.length).mp ht with ht | ⟨rfl, hturn, he⟩
    · rcases (givenAt_concat_iff hr.length).mp hu with hu | ⟨rfl, hturn, he⟩
      · exact hr.once i t u key shared key' shared' ht hu
      · exact absurd he (hbefore t key shared _ _ ht hturn)
    · rcases (givenAt_concat_iff hr.length).mp hu with hu | ⟨rfl, -, -⟩
      · exact absurd he (hbefore u key' shared' _ _ hu hturn)
      · rfl
  refused client hclient failure hresult :=
    (hs.refused hclient hresult).elim
      (fun hold ↦ hr.refused client hold failure hresult) id

end Recorded

/-! ### Runs -/

/-- Every run is coherent. -/
theorem coherent (keys : List CacheKey) (schedule : List Turn) :
    Coherent (Race.after keys schedule) (Race.events keys schedule) :=
  trace_induct (P := fun _ h r ↦ Coherent r h) (.start keys)
    (fun _ _ r turn hc ↦ hc.step (r.steps turn)) schedule

/-- Every run keeps its counters. -/
theorem counted (keys : List CacheKey) (schedule : List Turn) :
    Counted (Race.after keys schedule) :=
  trace_induct (P := fun _ _ r ↦ Counted r) (.start keys)
    (fun _ _ r turn hc ↦ hc.step (r.steps turn)) schedule

/-- Every run is recorded. -/
theorem recorded (keys : List CacheKey) (schedule : List Turn) :
    Recorded keys schedule (Race.events keys schedule) (Race.after keys schedule) :=
  trace_induct (.start keys) (fun _ _ r turn hr ↦ hr.step (r.steps turn)) schedule

/-- A get that returned an invoker was given it. -/
theorem Race.given_of_result (hkey : (r.clients[i]?).map Client.key = some key)
    (hresult : r.result? i = some (.ok shared)) : r.given? i = some (key, shared) := by
  unfold Race.result? at hresult
  unfold Race.given?
  cases hi : r.clients[i]? with
  | none =>
    rw [hi] at hkey
    cases hkey
  | some client =>
    rw [hi] at hkey hresult
    obtain ⟨key', phase⟩ := client
    cases hkey
    cases phase with
    | finished result =>
      cases hresult
      rfl
    | waiting | found | absent | compiled | counted => cases hresult

/-- A get returns what its signature compiles to. -/
theorem Recorded.result_eq (hr : Recorded keys schedule h r) (hc : Coherent r h)
    {result : Except Failure (Shared Invoker)} (hkey : keys[i]? = some key)
    (hresult : r.result? i = some result) : result.map Shared.value = key.compile := by
  have hclient : (r.clients[i]?).map Client.key = some key := by rw [hr.keys, hkey]
  cases result with
  | ok shared =>
    obtain ⟨t, -, ht⟩ := (hr.given_iff i key shared).mpr (Race.given_of_result hclient hresult)
    exact (hc.reflects.compile key shared (List.mem_of_getElem? ht)).symm
  | error failure =>
    obtain ⟨client, hi, rfl⟩ := Option.map_eq_some_iff.mp hclient
    rw [Race.result?, hi] at hresult
    exact (hr.refused client (List.mem_of_getElem? hi) failure hresult).symm

/-- Two gets share their invoker by key and clears, whichever of the two was given it first. -/
theorem Recorded.shares (hr : Recorded keys schedule h r) (hc : Coherent r h) (htu : t ≤ u)
    {s₁ s₂ : Shared Invoker} (hi : GivenAt schedule h i t k s₁) (hj : GivenAt schedule h j u l s₂) :
    s₁.identity = s₂.identity ↔
      k = l ∧ ∀ m : Nat, t < m → m < u → schedule[m]? ≠ some .clear := by
  have hclears : Undisturbed h t u ↔ ∀ m : Nat, t < m → m < u → schedule[m]? ≠ some .clear := by
    simp only [Undisturbed, ne_eq, hr.cleared_iff]
  rcases Nat.eq_or_lt_of_le htu with rfl | hlt
  · obtain ⟨rfl, rfl⟩ : k = l ∧ s₁ = s₂ := by simpa using hi.2.symm.trans hj.2
    simp only [true_and, true_iff]
    intro m hm hm'
    omega
  · rw [hc.reflects.shares t u k l s₁ s₂ hlt hi.2 hj.2, hclears]

/-- When all gets have returned, no miss is counted ahead of its entry. -/
theorem Race.countP_isCounted_eq_zero (hdone : ∀ client ∈ r.clients, client.result? ≠ none) :
    r.clients.countP Client.isCounted = 0 := by
  rw [List.countP_eq_zero]
  rintro ⟨key, phase⟩ hclient
  cases phase with
  | counted fresh => exact absurd rfl (hdone _ hclient)
  | waiting | found | absent | compiled | finished => simp [Client.isCounted]

/-- A cache stays coherent under any schedule of gets and clears. What it finds under a key and
what it returns for it is the compiled invoker of the key, and a signature that does not compile
gives its error. A get that returned an invoker was given it at one step, by the look-up or by the
insertion. Of two gets that were given invokers the keys and the clears between these steps say
whether they share. There are never more entries than misses, and when all gets have returned, the
counters tell how many were served. -/
theorem interleaving_coherent (keys : List CacheKey) (schedule : List Turn) :
    (∀ key shared, (Race.after keys schedule).cache.lookup key = some shared →
      key.compile = .ok shared.value) ∧
    (∀ (i : Nat) key result, keys[i]? = some key →
      (Race.after keys schedule).result? i = some result →
      result.map Shared.value = key.compile) ∧
    (∀ (i : Nat) key shared, keys[i]? = some key →
      (Race.after keys schedule).result? i = some (.ok shared) →
      ∃ t, GivenAt schedule (Race.events keys schedule) i t key shared ∧
        ∀ u key' shared', GivenAt schedule (Race.events keys schedule) i u key' shared' → u = t) ∧
    (∀ i j t u k₁ k₂ s₁ s₂, t ≤ u → GivenAt schedule (Race.events keys schedule) i t k₁ s₁ →
      GivenAt schedule (Race.events keys schedule) j u k₂ s₂ →
      (s₁.identity = s₂.identity ↔
        k₁ = k₂ ∧ ∀ m : Nat, t < m → m < u → schedule[m]? ≠ some .clear)) ∧
    (Race.after keys schedule).cache.size ≤ (Race.after keys schedule).cache.misses ∧
    ((∀ client ∈ (Race.after keys schedule).clients, client.result? ≠ none) →
      (Race.after keys schedule).cache.hits + (Race.after keys schedule).cache.misses =
        (Race.after keys schedule).clients.countP Client.isServed) := by
  have hc := coherent keys schedule
  have hcounted := counted keys schedule
  have hr := recorded keys schedule
  refine ⟨fun _ _ ↦ hc.reflects.compile_of_lookup, fun _ _ _ ↦ hr.result_eq hc, ?_,
    fun _ _ _ _ _ _ _ _ htu hi hj ↦ hr.shares hc htu hi hj, ?_, ?_⟩
  · intro i key shared hkey hresult
    have hclient : ((Race.after keys schedule).clients[i]?).map Client.key = some key := by
      rw [hr.keys, hkey]
    obtain ⟨t, ht⟩ := (hr.given_iff i key shared).mpr (Race.given_of_result hclient hresult)
    exact ⟨t, ht, fun u key' shared' hu ↦ hr.once i u t key' shared' key shared hu ht⟩
  · exact Nat.le_trans (Nat.le_add_right _ _) hcounted.size_le
  · intro hdone
    rw [hcounted.total, Race.countP_isCounted_eq_zero hdone, Nat.add_zero]

/-- Two gets of one key that both find nothing, and a third that begins after a clear. -/
def racingGets : List CacheKey × List Turn :=
  (List.replicate 3 ⟨.x64Unix, "i(ii)"⟩,
    [.client 0, .client 1, .client 0, .client 1, .client 0, .client 1, .client 0, .client 1,
      .clear, .client 2, .client 2, .client 2, .client 2])

/-- The second of the gets adopts the invoker of the first, the third has one of its own. -/
theorem racingGets_share : ∃ s₀ s₁ s₂ : Shared Invoker,
    (Race.after racingGets.1 racingGets.2).result? 0 = some (.ok s₀) ∧
    (Race.after racingGets.1 racingGets.2).result? 1 = some (.ok s₁) ∧
    (Race.after racingGets.1 racingGets.2).result? 2 = some (.ok s₂) ∧
    s₀.identity = s₁.identity ∧ s₁.identity ≠ s₂.identity ∧
    CacheKey.compile ⟨.x64Unix, "i(ii)"⟩ = .ok s₂.value ∧
    (Race.after racingGets.1 racingGets.2).cache.hits +
      (Race.after racingGets.1 racingGets.2).cache.misses = 3 := by
  obtain ⟨-, hresults, -, hshares, -, htotal⟩ := interleaving_coherent racingGets.1 racingGets.2
  obtain ⟨s₀, hresult₀, hgiven₀⟩ : ∃ s,
      (Race.after racingGets.1 racingGets.2).result? 0 = some (.ok s) ∧
      GivenAt racingGets.2 (Race.events racingGets.1 racingGets.2) 0 6 ⟨.x64Unix, "i(ii)"⟩ s :=
    ⟨_, rfl, rfl, rfl⟩
  obtain ⟨s₁, hresult₁, hgiven₁⟩ : ∃ s,
      (Race.after racingGets.1 racingGets.2).result? 1 = some (.ok s) ∧
      GivenAt racingGets.2 (Race.events racingGets.1 racingGets.2) 1 7 ⟨.x64Unix, "i(ii)"⟩ s :=
    ⟨_, rfl, rfl, rfl⟩
  obtain ⟨s₂, hresult₂, hgiven₂⟩ : ∃ s,
      (Race.after racingGets.1 racingGets.2).result? 2 = some (.ok s) ∧
      GivenAt racingGets.2 (Race.events racingGets.1 racingGets.2) 2 12 ⟨.x64Unix, "i(ii)"⟩ s :=
    ⟨_, rfl, rfl, rfl⟩
  have hsame : s₀.identity = s₁.identity :=
    (hshares 0 1 6 7 _ _ s₀ s₁ (by decide) hgiven₀ hgiven₁).mpr ⟨rfl, by omega⟩
  have hapart : s₁.identity ≠ s₂.identity := fun hidentity ↦
    ((hshares 1 2 7 12 _ _ s₁ s₂ (by decide) hgiven₁ hgiven₂).mp hidentity).2 8 (by decide)
      (by decide) rfl
  have hvalue := hresults 2 _ _ rfl hresult₂
  have hdone : ∀ client ∈ (Race.after racingGets.1 racingGets.2).clients,
      client.result? ≠ none := by decide +kernel
  exact ⟨s₀, s₁, s₂, hresult₀, hresult₁, hresult₂, hsame, hapart, hvalue.symm, htotal hdone⟩

end ForeignCall.Cache
