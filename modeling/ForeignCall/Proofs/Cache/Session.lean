import ForeignCall.Proofs.Cache.History

/-!
# Cache sessions

A cache that starts empty and serves gets and clears one after the other. Its history says which
gets share an invoker; the counters and the number of entries are tallies of the history. To a
caller the cache shows in its counters and in shared identities alone: every get is answered with
the compiled invoker of its key or with the error of its signature.
-/

namespace ForeignCall

/-- The parameters an allocator is made from. -/
def Allocator.parameters (a : Allocator) :
    Convention × WordSize × ByteOrder × Nat × Nat × FloatPolicy :=
  (a.convention, a.wordSize, a.order, a.generalCount, a.floatCount, a.policy)

/-- Allocators with the same parameters are equal. -/
theorem Allocator.parameters_inj {a b : Allocator} : a.parameters = b.parameters ↔ a = b := by
  constructor
  · intro h
    simp only [parameters, Prod.mk.injEq] at h
    obtain ⟨hconvention, hword, horder, hgeneral, hfloat, hpolicy⟩ := h
    have ha := a.make_self
    rw [hconvention, hword, horder, hgeneral, hfloat, hpolicy, b.make_self] at ha
    exact (Except.ok.inj ha).symm
  · rintro rfl
    rfl

/-- A cache key is determined by the parameters of its allocator and its text. -/
theorem CacheKey.eq_iff {k l : CacheKey} :
    k = l ↔ k.allocator.parameters = l.allocator.parameters ∧ k.signature = l.signature := by
  obtain ⟨a, text⟩ := k
  obtain ⟨b, text'⟩ := l
  rw [Allocator.parameters_inj, CacheKey.mk.injEq]

namespace Cache

/-- What a cache can be asked for. -/
inductive Request where
  | get (key : CacheKey)
  | clear

/-- Serves a request: what comes of it, and the cache afterwards. -/
def serve (c : Cache) : Request → Event × Cache
  | .get key =>
    match c.get key with
    | (.ok shared, c) => (.gave key shared, c)
    | (.error failure, c) => (.refused key failure, c)
  | .clear => (.cleared, c.clear)

/-- What comes of the requests of a session. -/
def history (requests : List Request) : List Event := (trace serve empty requests).1

/-- The cache after the requests of a session. -/
def after (requests : List Request) : Cache := (trace serve empty requests).2

/-- What may come of a request: a get is given the compiled invoker of its key, or the error of
its signature. -/
inductive Answers : Request → Event → Prop
  | gave {key shared} (h : key.compile = .ok shared.value) :
      Answers (.get key) (.gave key shared)
  | refused {key failure} (h : key.compile = .error failure) :
      Answers (.get key) (.refused key failure)
  | cleared : Answers .clear .cleared

/-! ### Tallies of a history -/

/-- Whether the entries were dropped. -/
def Event.isCleared : Event → Bool
  | cleared => true
  | _ => false

/-- Whether a get was given an invoker. -/
def Event.isGave : Event → Bool
  | gave .. => true
  | _ => false

/-- The key an invoker was given out for. -/
def Event.key? : Event → Option CacheKey
  | gave key _ => some key
  | _ => none

/-- The events behind the latest clear, all of them if there is none. -/
def sinceClear (h : List Event) : List Event := (h.reverse.takeWhile (!·.isCleared)).reverse

/-- The keys requested with success since the latest clear, as often as they were. -/
def requested (h : List Event) : List CacheKey := (sinceClear h).filterMap Event.key?

/-- Whether a get at a place was given an invoker for a key that had not been requested with
success since the latest clear before it. -/
def isFirst (h : List Event) (i : Nat) : Bool :=
  match (h[i]?).bind Event.key? with
  | some key => key ∉ requested (h.take i)
  | none => false

/-- The number of such gets. -/
def firsts (h : List Event) : Nat := (List.range h.length).countP (isFirst h)

variable {c c' : Cache} {h : List Event} {e : Event} {key : CacheKey} {r : Request}

/-- A clear leaves nothing behind it, any other event is added. -/
theorem sinceClear_concat (h : List Event) (e : Event) :
    sinceClear (h ++ [e]) = if e.isCleared then [] else sinceClear h ++ [e] := by
  cases hc : e.isCleared <;> simp [sinceClear, hc]

/-- A clear leaves no key behind it, any other event adds the key it gave an invoker for. -/
theorem requested_concat (h : List Event) (e : Event) :
    requested (h ++ [e]) = if e.isCleared then [] else requested h ++ e.key?.toList := by
  rw [requested, sinceClear_concat]
  split
  · rfl
  · rw [List.filterMap_append]
    cases e <;> rfl

/-- A get that is given an invoker adds its key. -/
theorem requested_concat_gave (h : List Event) (key : CacheKey) (shared : Shared Invoker) :
    requested (h ++ [.gave key shared]) = requested h ++ [key] := by
  rw [requested_concat]
  rfl

/-- A get that is given an invoker is one more of them. -/
theorem countP_concat_gave (h : List Event) (key : CacheKey) (shared : Shared Invoker) :
    (h ++ [Event.gave key shared]).countP Event.isGave = h.countP Event.isGave + 1 := by
  rw [List.countP_append]
  rfl

/-- A place keeps being a first when events are added behind it. -/
theorem isFirst_concat {i : Nat} (hi : i < h.length) : isFirst (h ++ [e]) i = isFirst h i := by
  unfold isFirst
  rw [List.getElem?_append_left hi, List.take_append_of_le_length (Nat.le_of_lt hi)]

/-- An event adds a first if it gives an invoker for a key not requested so far. -/
theorem firsts_concat (h : List Event) (e : Event) :
    firsts (h ++ [e]) = firsts h + (e.key?.toList.countP (· ∉ requested h)) := by
  have hbefore : (List.range h.length).countP (isFirst (h ++ [e])) =
      (List.range h.length).countP (isFirst h) :=
    List.countP_congr fun i hi ↦ by rw [isFirst_concat (List.mem_range.mp hi)]
  have hlast : isFirst (h ++ [e]) h.length = e.key?.toList.any (· ∉ requested h) := by
    unfold isFirst
    rw [List.getElem?_concat_length, List.take_left]
    cases hk : e.key? <;> simp [hk]
  rw [firsts, List.length_append, List.length_singleton, List.range_succ, List.countP_append,
    hbefore, ← firsts, List.countP_singleton, hlast]
  cases e.key? <;> simp [List.countP_singleton]

/-- A get that is given an invoker is a first unless its key was requested. -/
theorem firsts_concat_gave (h : List Event) (key : CacheKey) (shared : Shared Invoker) :
    firsts (h ++ [.gave key shared]) =
      if key ∈ requested h then firsts h else firsts h + 1 := by
  rw [firsts_concat]
  by_cases hk : key ∈ requested h <;> simp [Event.key?, hk]

/-- One more key is one more distinct key unless it was there. -/
theorem length_eraseDups_concat (ks : List CacheKey) (key : CacheKey) :
    (ks ++ [key]).eraseDups.length =
      if key ∈ ks then ks.eraseDups.length else ks.eraseDups.length + 1 := by
  rw [List.eraseDups_append, List.length_append]
  by_cases hk : key ∈ ks <;> simp [List.removeAll, hk, List.eraseDups_cons]

/-! ### One request -/

/-- The cache after a get that compiled its signature. -/
def afterMiss (c : Cache) (key : CacheKey) (inv : Invoker) : Cache :=
  ((c.issue inv).2.countMiss.insertIfAbsent key ⟨c.issued, inv⟩).2

/-- A get that found nothing and compiled is given what it compiled. -/
theorem insertIfAbsent_eq_afterMiss (hl : c.lookup key = none) (inv : Invoker) :
    (c.issue inv).2.countMiss.insertIfAbsent key ⟨c.issued, inv⟩ =
      (⟨c.issued, inv⟩, c.afterMiss key inv) := by
  have hnone : (c.issue inv).2.countMiss.lookup key = none := hl
  rw [afterMiss, insertIfAbsent_of_none hnone]

/-- All that serving a request can do. -/
inductive Serves (c : Cache) : Request → Event → Cache → Prop
  | hit {key shared} (hl : c.lookup key = some shared) :
      Serves c (.get key) (.gave key shared) c.countHit
  | refused {key failure} (hl : c.lookup key = none) (hc : key.compile = .error failure) :
      Serves c (.get key) (.refused key failure) c
  | miss {key inv} (hl : c.lookup key = none) (hc : key.compile = .ok inv) :
      Serves c (.get key) (.gave key ⟨c.issued, inv⟩) (c.afterMiss key inv)
  | clear : Serves c .clear .cleared c.clear

/-- Serving a request does one of these. -/
theorem serves (c : Cache) (r : Request) : Serves c r (c.serve r).1 (c.serve r).2 := by
  cases r with
  | clear => exact .clear
  | get key =>
    cases hl : c.lookup key with
    | some shared =>
      simp only [serve, get, hl]
      exact .hit hl
    | none =>
      cases hc : key.compile with
      | error failure =>
        simp only [serve, get, hl, hc]
        exact .refused hl hc
      | ok inv =>
        simp only [serve, get, hl, hc]
        rw [show (c.issue inv).1 = ⟨c.issued, inv⟩ from rfl, insertIfAbsent_eq_afterMiss hl]
        exact .miss hl hc

/-- A get that fails leaves the cache as it is. -/
theorem get_of_error {failure : Failure} (hf : (c.get key).1 = .error failure) :
    (c.get key).2 = c := by
  unfold get at hf ⊢
  split at hf
  · cases hf
  · split at hf
    · rfl
    · cases hf

variable {requests : List Request}

/-- A request is answered as it may be. -/
theorem Serves.answers (hs : Serves c r e c') (hr : Reflects c h) : Answers r e := by
  cases hs with
  | hit hl => exact .gave (hr.compile_of_lookup hl)
  | refused hl hc => exact .refused hc
  | miss hl hc => exact .gave hc
  | clear => exact .cleared

/-- Serving a request keeps what the history says of the entries. -/
theorem Reflects.serve (hr : Reflects c h) (hs : Serves c r e c') : Reflects c' (h ++ [e]) := by
  cases hs with
  | hit hl => exact (hr.hit hl).of_entries_eq rfl (Nat.le_refl _)
  | refused hl hc => exact hr.quiet (by simp) (by simp)
  | @miss key inv hl hc =>
    have hcounted : Reflects (c.issue inv).2.countMiss h :=
      hr.of_entries_eq rfl (Nat.le_succ c.issued)
    have hgave := hcounted.insertIfAbsent
      (show key.compile = .ok (Shared.mk c.issued inv).value from hc) (Nat.lt_succ_self c.issued)
      fun k s hks ↦ Nat.ne_of_lt (hr.issued k s hks)
    rwa [insertIfAbsent_eq_afterMiss hl] at hgave
  | clear => exact hr.clear

/-- The counters and the entries of a cache agree with the tallies of a history. -/
structure Tallied (c : Cache) (h : List Event) : Prop where
  mem_requested_iff : ∀ key, key ∈ requested h ↔ (c.lookup key).isSome = true
  size : c.size = (requested h).eraseDups.length
  total : c.hits + c.misses = h.countP Event.isGave
  misses : c.misses = firsts h

/-- The empty cache agrees with the empty history. -/
theorem Tallied.start : Tallied empty [] where
  mem_requested_iff key := by simp [requested, sinceClear, lookup_empty]
  size := rfl
  total := rfl
  misses := rfl

/-- What is found after a get that compiled its signature. -/
theorem lookup_afterMiss (c : Cache) (key k : CacheKey) (inv : Invoker) (hl : c.lookup key = none) :
    (c.afterMiss key inv).lookup k =
      if k = key then some ⟨c.issued, inv⟩ else c.lookup k := by
  rw [afterMiss, lookup_insertIfAbsent, insertIfAbsent_eq_afterMiss hl]
  rfl

/-- A get that compiled its signature adds an entry. -/
theorem size_afterMiss (c : Cache) (key : CacheKey) (inv : Invoker) (hl : c.lookup key = none) :
    (c.afterMiss key inv).size = c.size + 1 := by
  have hnone : (c.issue inv).2.countMiss.lookup key = none := hl
  rw [afterMiss, size_insertIfAbsent, hnone]
  rfl

/-- It is counted as a miss. -/
theorem misses_afterMiss (c : Cache) (key : CacheKey) (inv : Invoker) :
    (c.afterMiss key inv).misses = c.misses + 1 := by
  rw [afterMiss, misses_insertIfAbsent]
  rfl

/-- It is not counted as a hit. -/
theorem hits_afterMiss (c : Cache) (key : CacheKey) (inv : Invoker) :
    (c.afterMiss key inv).hits = c.hits := by
  rw [afterMiss, hits_insertIfAbsent]
  rfl

/-- Serving a request keeps the tallies. -/
theorem Tallied.serve (ht : Tallied c h) (hs : Serves c r e c') : Tallied c' (h ++ [e]) := by
  cases hs with
  | @hit key shared hl =>
    have hmem : key ∈ requested h := by simp [ht.mem_requested_iff, hl]
    refine ⟨fun k ↦ ?_, ?_, ?_, ?_⟩
    · rw [requested_concat_gave, List.mem_append, List.mem_singleton, ht.mem_requested_iff]
      constructor
      · rintro (hk | rfl)
        · exact hk
        · exact Option.isSome_iff_exists.mpr ⟨shared, hl⟩
      · exact .inl
    · rw [requested_concat_gave, length_eraseDups_concat, if_pos hmem]
      exact ht.size
    · rw [countP_concat_gave, ← ht.total]
      exact Nat.add_right_comm c.hits 1 c.misses
    · rw [firsts_concat_gave, if_pos hmem]
      exact ht.misses
  | @refused key failure hl hc =>
    have hrequested : requested (h ++ [.refused key failure]) = requested h := by
      rw [requested_concat]
      exact List.append_nil _
    refine ⟨fun k ↦ ?_, ?_, ?_, ?_⟩
    · rw [hrequested]
      exact ht.mem_requested_iff k
    · rw [hrequested]
      exact ht.size
    · rw [List.countP_append]
      exact ht.total
    · rw [firsts_concat]
      exact ht.misses
  | @miss key inv hl hc =>
    have hmem : key ∉ requested h := by simp [ht.mem_requested_iff, hl]
    refine ⟨fun k ↦ ?_, ?_, ?_, ?_⟩
    · rw [requested_concat_gave, List.mem_append, List.mem_singleton, ht.mem_requested_iff,
        lookup_afterMiss c key k inv hl]
      by_cases hk : k = key <;> simp [hk]
    · rw [requested_concat_gave, length_eraseDups_concat, if_neg hmem, size_afterMiss c key inv hl,
        ht.size]
    · rw [countP_concat_gave, ← ht.total, hits_afterMiss, misses_afterMiss]
      omega
    · rw [firsts_concat_gave, if_neg hmem, misses_afterMiss, ht.misses]
  | clear =>
    have hrequested : requested (h ++ [.cleared]) = [] := by
      rw [requested_concat]
      rfl
    refine ⟨fun k ↦ ?_, ?_, ?_, ?_⟩
    · simp [hrequested, lookup_clear]
    · rw [hrequested]
      rfl
    · rw [List.countP_append]
      exact ht.total
    · rw [firsts_concat]
      exact ht.misses

/-! ### Sessions -/

/-- What holds of a session: its cache is what the history left behind, its counters are the
tallies of the history, and every request has its answer. -/
structure Follows (requests : List Request) (h : List Event) (c : Cache) : Prop where
  reflects : Reflects c h
  tallied : Tallied c h
  length_eq : h.length = requests.length
  answers : ∀ (i : Nat) r e, requests[i]? = some r → h[i]? = some e → Answers r e

/-- One more request. -/
theorem Follows.serve (hf : Follows requests h c) (r : Request) :
    Follows (requests ++ [r]) (h ++ [(c.serve r).1]) (c.serve r).2 where
  reflects := hf.reflects.serve (c.serves r)
  tallied := hf.tallied.serve (c.serves r)
  length_eq := by simp [hf.length_eq]
  answers i r' e hi he := by
    rcases getElem?_concat_eq_some_iff.mp hi with hi | ⟨rfl, rfl⟩
    · have hlt : i < h.length := hf.length_eq ▸ (List.getElem?_eq_some_iff.mp hi).1
      rw [List.getElem?_append_left hlt] at he
      exact hf.answers i r' e hi he
    · rw [← hf.length_eq, List.getElem?_concat_length, Option.some.injEq] at he
      subst he
      exact (c.serves r).answers hf.reflects

/-- The clears of a session are where they were requested. -/
theorem Follows.getElem?_eq_cleared_iff (hf : Follows requests h c) (i : Nat) :
    h[i]? = some .cleared ↔ requests[i]? = some .clear := by
  constructor
  · intro hi
    have hlt : i < requests.length := hf.length_eq ▸ (List.getElem?_eq_some_iff.mp hi).1
    have hanswer := hf.answers i _ _ (List.getElem?_eq_getElem hlt) hi
    rw [List.getElem?_eq_getElem hlt]
    cases hr : requests[i] with
    | clear => rfl
    | get key =>
      rw [hr] at hanswer
      cases hanswer
  · intro hi
    have hlt : i < h.length := hf.length_eq ▸ (List.getElem?_eq_some_iff.mp hi).1
    have hanswer := hf.answers i _ _ hi (List.getElem?_eq_getElem hlt)
    rw [List.getElem?_eq_getElem hlt]
    generalize h[i] = e at hanswer
    cases hanswer
    rfl

/-- The cache of a session is what its requests left behind, and each was answered. -/
theorem follows (requests : List Request) :
    Follows requests (history requests) (after requests) := by
  have hstart : Follows [] [] empty := ⟨.start, .start, rfl, by simp⟩
  exact trace_induct hstart (fun _ _ _ r hf ↦ hf.serve r) requests

/-- A cache that starts empty is transparent. Each get is answered with the compiled invoker of
its key or the error of its signature. Two gets are given one invoker exactly if the parameters of
their allocators and their texts are equal and no clear was between them. At every point the
counters tell how many gets were given an invoker and how many of them were the first of their key
since the latest clear, and the size is the number of keys since the latest clear. A get that fails
changes nothing, a clear no counter. -/
theorem session_transparent (requests : List Request) :
    ((history requests).length = requests.length ∧
      ∀ (i : Nat) r e, requests[i]? = some r → (history requests)[i]? = some e → Answers r e) ∧
    (∀ (i j : Nat) k₁ k₂ s₁ s₂, i < j → (history requests)[i]? = some (.gave k₁ s₁) →
      (history requests)[j]? = some (.gave k₂ s₂) →
      (s₁.identity = s₂.identity ↔
        k₁.allocator.parameters = k₂.allocator.parameters ∧ k₁.signature = k₂.signature ∧
        ∀ m : Nat, i < m → m < j → requests[m]? ≠ some .clear)) ∧
    (after requests).hits + (after requests).misses = (history requests).countP Event.isGave ∧
    (after requests).misses = firsts (history requests) ∧
    (after requests).size = (requested (history requests)).eraseDups.length ∧
    ((after requests).isEmpty = true ↔ (after requests).size = 0) ∧
    (∀ key failure, ((after requests).get key).1 = .error failure →
      ((after requests).get key).2 = after requests) ∧
    (after requests).clear.hits = (after requests).hits ∧
    (after requests).clear.misses = (after requests).misses := by
  have hf := follows requests
  refine ⟨⟨hf.length_eq, hf.answers⟩, ?_, hf.tallied.total, hf.tallied.misses, hf.tallied.size,
    isEmpty_iff_size_eq_zero _, fun _ _ ↦ get_of_error, rfl, rfl⟩
  intro i j k₁ k₂ s₁ s₂ hij hi hj
  rw [hf.reflects.shares i j k₁ k₂ s₁ s₂ hij hi hj, CacheKey.eq_iff, and_assoc]
  simp only [Undisturbed, ne_eq, hf.getElem?_eq_cleared_iff]

/-- A key that is asked for twice, a clear, and the key once more. -/
def getsAroundClear : List Request :=
  [.get ⟨.x64Unix, "i(ii)"⟩, .get ⟨.x64Unix, "i(ii)"⟩, .clear, .get ⟨.x64Unix, "i(ii)"⟩]

/-- The second get is given the invoker of the first, the one after the clear another. -/
theorem getsAroundClear_share : ∃ s₀ s₁ s₂ : Shared Invoker,
    history getsAroundClear = [.gave ⟨.x64Unix, "i(ii)"⟩ s₀, .gave ⟨.x64Unix, "i(ii)"⟩ s₁, .cleared,
      .gave ⟨.x64Unix, "i(ii)"⟩ s₂] ∧
    s₀.identity = s₁.identity ∧ s₁.identity ≠ s₂.identity ∧
    CacheKey.compile ⟨.x64Unix, "i(ii)"⟩ = .ok s₂.value ∧
    (after getsAroundClear).hits + (after getsAroundClear).misses = 3 ∧
    (after getsAroundClear).misses = 2 ∧ (after getsAroundClear).size = 1 := by
  obtain ⟨⟨-, hanswers⟩, hshares, htotal, hmisses, hsize, -⟩ := session_transparent getsAroundClear
  obtain ⟨s₀, s₁, s₂, hhistory⟩ : ∃ s₀ s₁ s₂, history getsAroundClear =
      [.gave ⟨.x64Unix, "i(ii)"⟩ s₀, .gave ⟨.x64Unix, "i(ii)"⟩ s₁, .cleared,
        .gave ⟨.x64Unix, "i(ii)"⟩ s₂] := ⟨_, _, _, rfl⟩
  rw [hhistory] at hanswers hshares htotal hmisses hsize
  have hsame : s₀.identity = s₁.identity :=
    (hshares 0 1 _ _ s₀ s₁ (by decide) rfl rfl).mpr ⟨rfl, rfl, by omega⟩
  have hapart : s₁.identity ≠ s₂.identity := fun hidentity ↦
    ((hshares 1 3 _ _ s₁ s₂ (by decide) rfl rfl).mp hidentity).2.2 2 (by decide) (by decide) rfl
  have hvalue : CacheKey.compile ⟨.x64Unix, "i(ii)"⟩ = .ok s₂.value := by
    cases hanswers 3 _ _ rfl rfl with
    | gave h => exact h
  exact ⟨s₀, s₁, s₂, hhistory, hsame, hapart, hvalue, htotal, hmisses, hsize⟩

end Cache

end ForeignCall
