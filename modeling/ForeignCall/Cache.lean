import ForeignCall.Assignment

/-!
# The invoker cache

Each pair of allocator and signature is compiled once and its invoker handed out from then on. An
invoker that is handed out has an identity, so that sharing can be seen. The entries are kept by
allocator and below it by signature text; the entries of an allocator are made when the first of
them is entered. The operations are built from the single accesses a get consists of: a look-up,
the compilation, and an insertion that keeps what is there already.
-/

namespace ForeignCall

/-- A value with an identity. Values with equal identities are one and the same. -/
structure Shared (α : Type) where
  identity : Nat
  value : α
  deriving DecidableEq, Repr

/-- What an invoker is cached under. -/
structure CacheKey where
  allocator : Allocator
  signature : String
  deriving DecidableEq

/-- Compiles the signature of a key. -/
def CacheKey.compile (key : CacheKey) : Except Failure Invoker :=
  key.allocator.ofSignature key.signature

/-- Cached invokers by allocator and, for each, by signature text. -/
abbrev CacheEntries := List (Allocator × List (String × Shared Invoker))

namespace CacheEntries

/-- The invoker entered under a key. -/
def find (entries : CacheEntries) (key : CacheKey) : Option (Shared Invoker) :=
  (entries.lookup key.allocator).bind (·.lookup key.signature)

/-- Enters an invoker under a key, next to the others of its allocator. -/
def enter (key : CacheKey) (shared : Shared Invoker) : CacheEntries → CacheEntries
  | [] => [(key.allocator, [(key.signature, shared)])]
  | (allocator, bySignature) :: rest =>
    if key.allocator = allocator then
      (allocator, (key.signature, shared) :: bySignature) :: rest
    else (allocator, bySignature) :: enter key shared rest

/-- Number of invokers entered. -/
def count : CacheEntries → Nat
  | [] => 0
  | (_, bySignature) :: rest => bySignature.length + count rest

/-- An invoker is looked for among those of its allocator alone. -/
theorem find_cons (key : CacheKey) (allocator : Allocator)
    (bySignature : List (String × Shared Invoker)) (rest : CacheEntries) :
    find ((allocator, bySignature) :: rest) key =
      if key.allocator = allocator then bySignature.lookup key.signature
      else find rest key := by
  by_cases h : key.allocator = allocator
  · simp [find, h]
  · have hne : (key.allocator == allocator) = false := beq_eq_false_iff_ne.mpr h
    simp only [find, List.lookup_cons, hne, h, if_false]

/-- A newly entered text is found with its invoker, the others of the allocator as before. -/
theorem lookup_cons_eq_ite (text text' : String) (shared : Shared Invoker)
    (bySignature : List (String × Shared Invoker)) :
    ((text, shared) :: bySignature).lookup text' =
      if text' = text then some shared else bySignature.lookup text' := by
  by_cases h : text' = text
  · simp [h]
  · have hne : (text' == text) = false := beq_eq_false_iff_ne.mpr h
    simp only [List.lookup_cons, hne, h, if_false]

/-- The key that was entered is found with its invoker, the others as before. -/
theorem find_enter (key key' : CacheKey) (shared : Shared Invoker) (entries : CacheEntries) :
    (enter key shared entries).find key' =
      if key' = key then some shared else entries.find key' := by
  obtain ⟨a, text⟩ := key
  obtain ⟨b, text'⟩ := key'
  induction entries with
  | nil =>
    rw [enter, find_cons, lookup_cons_eq_ite]
    by_cases hb : b = a <;> simp [hb, find]
  | cons row rest ih =>
    obtain ⟨allocator, bySignature⟩ := row
    by_cases ha : a = allocator
    · subst ha
      simp only [enter, if_true, find_cons, lookup_cons_eq_ite]
      by_cases hb : b = a <;> simp [hb]
    · simp only [enter, ha, if_false, find_cons, ih]
      by_cases hb : b = allocator
      · subst hb
        have hne : ¬ b = a := fun h ↦ ha h.symm
        simp [hne]
      · simp [hb]

/-- One more invoker is entered. -/
theorem count_enter (key : CacheKey) (shared : Shared Invoker) (entries : CacheEntries) :
    (enter key shared entries).count = entries.count + 1 := by
  induction entries with
  | nil => rfl
  | cons row rest ih =>
    obtain ⟨allocator, bySignature⟩ := row
    by_cases h : key.allocator = allocator
    · simp only [enter, h, if_true, count, List.length_cons]
      omega
    · simp only [enter, h, if_false, count, ih]
      omega

/-- Nothing is entered exactly if no allocator has an entry. -/
theorem all_isEmpty_iff (entries : CacheEntries) :
    entries.all (·.2.isEmpty) = true ↔ entries.count = 0 := by
  induction entries with
  | nil => simp [count]
  | cons row rest ih =>
    rw [List.all_cons, Bool.and_eq_true, ih, count, Nat.add_eq_zero_iff, List.isEmpty_iff,
      List.length_eq_zero_iff]

end CacheEntries

/-- A cache of compiled invokers. Its counts are naturals; a 64-bit counter shows the same ones until
it has been counted up 2 to the 64 times, from where it goes on modulo that number. -/
structure Cache where
  /-- Cached invokers. -/
  entries : CacheEntries
  /-- Number of gets served from the entries. -/
  hits : Nat
  /-- Number of gets that compiled. -/
  misses : Nat
  /-- Number of identities given out. -/
  issued : Nat

namespace Cache

/-- The cache without entries. -/
def empty : Cache := ⟨[], 0, 0, 0⟩

/-- The invoker cached under a key. -/
def lookup (c : Cache) (key : CacheKey) : Option (Shared Invoker) := c.entries.find key

/-- Counts a get that was served from the entries. -/
def countHit (c : Cache) : Cache := { c with hits := c.hits + 1 }

/-- Counts a get that compiled. -/
def countMiss (c : Cache) : Cache := { c with misses := c.misses + 1 }

/-- Gives an invoker an identity of its own. -/
def issue (c : Cache) (inv : Invoker) : Shared Invoker × Cache :=
  (⟨c.issued, inv⟩, { c with issued := c.issued + 1 })

/-- Enters an invoker under a key unless there is one, and gives back the one that is there. -/
def insertIfAbsent (c : Cache) (key : CacheKey) (shared : Shared Invoker) :
    Shared Invoker × Cache :=
  match c.lookup key with
  | some present => (present, c)
  | none => (shared, { c with entries := c.entries.enter key shared })

/-- Looks up or compiles the invoker of a key. A signature that does not compile changes
nothing. -/
def get (c : Cache) (key : CacheKey) : Except Failure (Shared Invoker) × Cache :=
  match c.lookup key with
  | some present => (.ok present, c.countHit)
  | none =>
    match key.compile with
    | .error e => (.error e, c)
    | .ok inv =>
      let (fresh, c) := c.issue inv
      let (shared, c) := c.countMiss.insertIfAbsent key fresh
      (.ok shared, c)

/-- Drops every entry and keeps the counts. -/
def clear (c : Cache) : Cache := { c with entries := [] }

/-- Number of entries. -/
def size (c : Cache) : Nat := c.entries.count

/-- Whether no allocator has an entry. -/
def isEmpty (c : Cache) : Bool := c.entries.all (·.2.isEmpty)

/-- Nothing is found in the empty cache. -/
theorem lookup_empty (key : CacheKey) : empty.lookup key = none := rfl

/-- Nothing is found after a clear. -/
theorem lookup_clear (c : Cache) (key : CacheKey) : c.clear.lookup key = none := rfl

/-- An insertion keeps the entry that is there. -/
theorem insertIfAbsent_of_some {c : Cache} {key : CacheKey} {present : Shared Invoker}
    (h : c.lookup key = some present) (shared : Shared Invoker) :
    c.insertIfAbsent key shared = (present, c) := by
  simp only [insertIfAbsent, h]

/-- An insertion where nothing was enters the new invoker. -/
theorem insertIfAbsent_of_none {c : Cache} {key : CacheKey} (h : c.lookup key = none)
    (shared : Shared Invoker) :
    c.insertIfAbsent key shared = (shared, { c with entries := c.entries.enter key shared }) := by
  simp only [insertIfAbsent, h]

/-- An insertion counts no hit. -/
@[simp] theorem hits_insertIfAbsent (c : Cache) (key : CacheKey) (shared : Shared Invoker) :
    (c.insertIfAbsent key shared).2.hits = c.hits := by
  unfold insertIfAbsent
  split <;> rfl

/-- An insertion counts no miss. -/
@[simp] theorem misses_insertIfAbsent (c : Cache) (key : CacheKey) (shared : Shared Invoker) :
    (c.insertIfAbsent key shared).2.misses = c.misses := by
  unfold insertIfAbsent
  split <;> rfl

/-- An insertion issues no identity. -/
@[simp] theorem issued_insertIfAbsent (c : Cache) (key : CacheKey) (shared : Shared Invoker) :
    (c.insertIfAbsent key shared).2.issued = c.issued := by
  unfold insertIfAbsent
  split <;> rfl

/-- Looking up after an insertion finds the new entry under its key, unless there was one. -/
theorem lookup_insertIfAbsent (c : Cache) (key key' : CacheKey) (shared : Shared Invoker) :
    (c.insertIfAbsent key shared).2.lookup key' =
      if key' = key then some (c.insertIfAbsent key shared).1 else c.lookup key' := by
  cases h : c.lookup key with
  | some present =>
    rw [insertIfAbsent_of_some h]
    split
    · next hk => rw [hk, h]
    · rfl
  | none =>
    rw [insertIfAbsent_of_none h]
    exact CacheEntries.find_enter key key' shared c.entries

/-- An insertion adds an entry unless there was one under its key. -/
theorem size_insertIfAbsent (c : Cache) (key : CacheKey) (shared : Shared Invoker) :
    (c.insertIfAbsent key shared).2.size =
      if (c.lookup key).isSome then c.size else c.size + 1 := by
  cases h : c.lookup key with
  | some present =>
    rw [insertIfAbsent_of_some h]
    rfl
  | none =>
    rw [insertIfAbsent_of_none h]
    exact CacheEntries.count_enter key shared c.entries

/-- The cache is empty exactly if it has no entry. -/
theorem isEmpty_iff_size_eq_zero (c : Cache) : c.isEmpty = true ↔ c.size = 0 :=
  c.entries.all_isEmpty_iff

end Cache

end ForeignCall
