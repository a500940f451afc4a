import ForeignCall.Library
import ForeignCall.Proofs.Cache.Session

/-!
# Binding through a cache

A function can be bound with an invoker of its own or with one from a cache. Whatever the cache was
used for before, the two ways agree: they give the same address and equal invokers, or the same
error, and an error about the name or the symbol comes before any about the signature. Binding
through a cache is a get once the symbol is found, so it leaves the cache alone when it fails, and
when it succeeds the cache has the invoker it gave.
-/

namespace ForeignCall

/-- What a bound function is made of, whichever invoker of equal ones it has. -/
def BoundFunction.parts (f : BoundFunction) : CodeAddress × Invoker := (f.code, f.invoker.value)

namespace Cache

variable {c : Cache} {h : List Event} {key : CacheKey} {shared : Shared Invoker}

/-! ### Gets in a cache that reflects its history -/

/-- The event of a get tells its answer. -/
theorem serve_get (c : Cache) (key : CacheKey) :
    c.serve (.get key) =
      (match (c.get key).1 with
        | .ok shared => .gave key shared
        | .error failure => .refused key failure, (c.get key).2) := by
  rw [serve]
  rcases c.get key with ⟨result, c'⟩
  cases result <;> rfl

/-- A get that was given an invoker adds it to the history. -/
theorem Reflects.get_ok (hr : Reflects c h) (hg : (c.get key).1 = .ok shared) :
    Reflects (c.get key).2 (h ++ [.gave key shared]) := by
  have hserve := hr.serve (c.serves (.get key))
  rwa [serve_get, hg] at hserve

/-- A get is answered as compiling its key is. -/
theorem Reflects.map_value_get (hr : Reflects c h) (key : CacheKey) :
    (c.get key).1.map Shared.value = key.compile := by
  have hanswers := (c.serves (.get key)).answers hr
  rw [serve_get] at hanswers
  cases hg : (c.get key).1 with
  | error failure =>
    rw [hg] at hanswers
    cases hanswers with
    | refused hc => exact hc.symm
  | ok shared =>
    rw [hg] at hanswers
    cases hanswers with
    | gave hc => exact hc.symm

/-- A get that follows one of the same key is given the same invoker. -/
theorem Reflects.get_get (hr : Reflects c h) (hg : (c.get key).1 = .ok shared) :
    ((c.get key).2.get key).1 = .ok shared := by
  have hl : (c.get key).2.lookup key = some shared := by
    rw [(hr.get_ok hg).lookup_iff, stands_concat_iff]
    exact .inl rfl
  rw [get, hl]

end Cache

namespace Library

variable {l : Library} {loader : Loader} {name : String} {key : CacheKey} {c : Cache}
  {h : List Cache.Event} {failure : Failure}

/-- The address of a symbol with the invoker of a key, or the first error: that of the name or the
symbol, then that of the signature. -/
def partsOf (l : Library) (loader : Loader) (name : String) (key : CacheKey) :
    Except Failure (CodeAddress × Invoker) :=
  match l.symbol loader name with
  | .error e => .error (.loading e)
  | .ok code => key.compile.map (code, ·)

/-- Binding gives the parts it is asked for. -/
theorem map_parts_bind (l : Library) (loader : Loader) (name : String) (key : CacheKey)
    (identity : Nat) :
    (l.bind loader name key identity).map BoundFunction.parts = l.partsOf loader name key := by
  unfold bind partsOf
  cases l.symbol loader name with
  | error e => rfl
  | ok code => cases key.compile <;> rfl

/-- Without the symbol nothing is bound and the cache is not used. -/
theorem bindCached_of_symbol_error {e : LoadError} (hs : l.symbol loader name = .error e)
    (key : CacheKey) (c : Cache) : l.bindCached loader name key c = (.error (.loading e), c) := by
  rw [bindCached, hs]

/-- With the symbol, binding through a cache is a get. -/
theorem bindCached_of_symbol_ok {code : CodeAddress} (hs : l.symbol loader name = .ok code)
    (key : CacheKey) (c : Cache) :
    l.bindCached loader name key c = ((c.get key).1.map (⟨code, ·⟩), (c.get key).2) := by
  rw [bindCached, hs]
  rcases c.get key with ⟨result, c'⟩
  cases result <;> rfl

/-- Binding through a cache that reflects its history gives the parts it is asked for. -/
theorem map_parts_bindCached (hr : c.Reflects h) (l : Library) (loader : Loader) (name : String)
    (key : CacheKey) :
    (l.bindCached loader name key c).1.map BoundFunction.parts = l.partsOf loader name key := by
  rw [partsOf]
  cases hs : l.symbol loader name with
  | error e =>
    rw [bindCached_of_symbol_error hs]
    rfl
  | ok code =>
    rw [bindCached_of_symbol_ok hs, ← hr.map_value_get key]
    cases (c.get key).1 <;> rfl

/-- Binding through a cache that fails leaves the cache as it is. -/
theorem bindCached_of_error (hf : (l.bindCached loader name key c).1 = .error failure) :
    (l.bindCached loader name key c).2 = c := by
  cases hs : l.symbol loader name with
  | error e => rw [bindCached_of_symbol_error hs]
  | ok code =>
    rw [bindCached_of_symbol_ok hs] at hf ⊢
    cases hg : (c.get key).1 with
    | error failure => exact Cache.get_of_error hg
    | ok shared =>
      rw [hg] at hf
      cases hf

/-- The invoker of a function that was bound through a cache is the one the cache has. -/
theorem get_bindCached (hr : c.Reflects h) {f : BoundFunction}
    (hf : (l.bindCached loader name key c).1 = .ok f) :
    ((l.bindCached loader name key c).2.get key).1 = .ok f.invoker := by
  cases hs : l.symbol loader name with
  | error e =>
    rw [bindCached_of_symbol_error hs] at hf
    cases hf
  | ok code =>
    rw [bindCached_of_symbol_ok hs] at hf ⊢
    cases hg : (c.get key).1 with
    | error failure =>
      rw [hg] at hf
      cases hf
    | ok shared =>
      rw [hg] at hf
      cases hf
      exact hr.get_get hg

end Library

namespace Cache

/-! ### Uses of a cache -/

/-- What a cache is used for. A binding is made with the answers the system gives at the time, so
that libraries may be closed and replaced between two of them. -/
inductive Operation where
  | get (key : CacheKey)
  | clear
  | bind (l : Library) (loader : Loader) (name : String) (key : CacheKey)

/-- The cache after an operation. -/
def perform (c : Cache) : Operation → Cache
  | .get key => (c.get key).2
  | .clear => c.clear
  | .bind l loader name key => (l.bindCached loader name key c).2

/-- The cache after operations on an empty one. -/
def used (operations : List Operation) : Cache := operations.foldl perform empty

/-- A get leaves a cache that reflects a history. -/
theorem Reflects.get (hr : Reflects c h) (key : CacheKey) : ∃ h', Reflects (c.get key).2 h' := by
  have hserve := hr.serve (c.serves (.get key))
  rw [serve_get] at hserve
  exact ⟨_, hserve⟩

/-- An operation leaves a cache that reflects a history. -/
theorem Reflects.perform (hr : Reflects c h) (o : Operation) :
    ∃ h', Reflects (c.perform o) h' := by
  cases o with
  | get key => exact hr.get key
  | clear => exact ⟨_, hr.clear⟩
  | bind l loader name key =>
    rw [Cache.perform]
    cases hs : l.symbol loader name with
    | error e =>
      rw [Library.bindCached_of_symbol_error hs]
      exact ⟨h, hr⟩
    | ok code =>
      rw [Library.bindCached_of_symbol_ok hs]
      exact hr.get key

/-- Whatever a cache was used for, it reflects a history. -/
theorem exists_reflects_used (operations : List Operation) :
    ∃ h, Reflects (used operations) h := by
  have hrun (c : Cache) (h : List Event) (hr : Reflects c h) :
      ∃ h', Reflects (operations.foldl Cache.perform c) h' := by
    induction operations generalizing c h with
    | nil => exact ⟨h, hr⟩
    | cons o rest ih =>
      obtain ⟨h', hr'⟩ := hr.perform o
      exact ih _ h' hr'
  exact hrun empty [] .start

/-- Binding with and without a cache agree, whatever the cache was used for. Both give the address
of the symbol and the compiled invoker of the key, or both the same error, that of the name or the
symbol before any of the signature. If binding through the cache fails, the cache is as it was; if
it succeeds, a get that follows is given the very invoker of the bound function. -/
theorem binding_agrees (operations : List Operation) (l : Library) (loader : Loader)
    (name : String) (key : CacheKey) :
    (∀ identity, (l.bindCached loader name key (used operations)).1.map BoundFunction.parts =
      (l.bind loader name key identity).map BoundFunction.parts) ∧
    (∀ identity e, l.symbol loader name = .error e →
      (l.bindCached loader name key (used operations)).1 = .error (.loading e) ∧
      l.bind loader name key identity = .error (.loading e)) ∧
    (∀ code, l.symbol loader name = .ok code →
      (l.bindCached loader name key (used operations)).1.map BoundFunction.parts =
        key.compile.map (code, ·)) ∧
    (∀ failure, (l.bindCached loader name key (used operations)).1 = .error failure →
      (l.bindCached loader name key (used operations)).2 = used operations) ∧
    ∀ f, (l.bindCached loader name key (used operations)).1 = .ok f →
      ((l.bindCached loader name key (used operations)).2.get key).1 = .ok f.invoker := by
  obtain ⟨h, hr⟩ := exists_reflects_used operations
  have hcached := Library.map_parts_bindCached hr l loader name key
  refine ⟨?_, ?_, ?_, fun _ ↦ Library.bindCached_of_error, fun _ ↦ Library.get_bindCached hr⟩
  · intro identity
    rw [hcached, Library.map_parts_bind]
  · intro identity e hs
    rw [Library.bindCached_of_symbol_error hs, Library.bind, hs]
    exact ⟨rfl, rfl⟩
  · intro code hs
    rw [hcached, Library.partsOf, hs]

/-- A loader whose libraries all have one symbol. -/
def oneSymbol : Loader where
  opens _ := .ok ()
  address _ name := if name = "f" then .ok ⟨0x400000⟩ else .error ("undefined symbol: " ++ name)

/-- Two libraries bind that symbol, the one before and the other after a clear. -/
def bindsAroundClear : List Operation :=
  [.bind ⟨some "a"⟩ oneSymbol "f" ⟨.x64Unix, "i(i)"⟩, .clear,
    .bind ⟨some "b"⟩ oneSymbol "f" ⟨.x64Unix, "i(i)"⟩]

/-- Bound once more, the symbol has the invoker of the second time. Another symbol is reported as
missing although its signature is incomplete, and the cache is as it was. -/
theorem bindsAroundClear_agree :
    (∃ f, (Library.bindCached ⟨none⟩ oneSymbol "f" ⟨.x64Unix, "i(i)"⟩
        (used bindsAroundClear)).1 = .ok f ∧
      f.code = ⟨0x400000⟩ ∧ f.invoker.identity = 1 ∧
      CacheKey.compile ⟨.x64Unix, "i(i)"⟩ = .ok f.invoker.value ∧
      ((Library.bindCached ⟨none⟩ oneSymbol "f" ⟨.x64Unix, "i(i)"⟩ (used bindsAroundClear)).2.get
        ⟨.x64Unix, "i(i)"⟩).1 = .ok f.invoker) ∧
    (Library.bindCached ⟨none⟩ oneSymbol "g" ⟨.x64Unix, "i("⟩ (used bindsAroundClear)).1 =
      .error (.loading (.symbolNotFound "g" "<process>: undefined symbol: g")) ∧
    (Library.bindCached ⟨none⟩ oneSymbol "g" ⟨.x64Unix, "i("⟩ (used bindsAroundClear)).2 =
      used bindsAroundClear := by
  obtain ⟨-, -, -, -, hget⟩ :=
    binding_agrees bindsAroundClear ⟨none⟩ oneSymbol "f" ⟨.x64Unix, "i(i)"⟩
  obtain ⟨-, hmissing, -, hsame, -⟩ :=
    binding_agrees bindsAroundClear ⟨none⟩ oneSymbol "g" ⟨.x64Unix, "i("⟩
  have herror := (hmissing 0 (.symbolNotFound "g" "<process>: undefined symbol: g") rfl).1
  exact ⟨⟨_, rfl, rfl, rfl, rfl, hget _ rfl⟩, herror, hsame _ herror⟩

end Cache

end ForeignCall
