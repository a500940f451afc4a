import ForeignCall.Proofs.Call
import ForeignCall.Proofs.Memory.CString
import ForeignCall.Proofs.Target.Selection
import ForeignCall.Tool.Call
import Mathlib.Data.List.Forall2

/-!
# Prepared calls

A call that is prepared can be made. A process of 64-bit Linux has one convention whatever attribute
is asked for, and it is one that a 64-bit process can use; a compiled signature has at most sixteen
arguments, and each argument on the command line becomes one word. So everything a call can fail
with is found out before native code runs.
-/

namespace ForeignCall

/-- Whether a target is detected as 64-bit Linux on x86-64: two names and anything behind them. -/
def Target.IsLinux (t : Target) : Prop := startsWith "x86_64-linux-" t.archOs = true

/-- On 64-bit Linux every attribute stands for System V. -/
theorem Target.allocator_of_isLinux {t : Target} (h : t.IsLinux) (attr : Attribute) :
    t.allocator attr = .ok .x64Unix := by
  have hstart : "x86_64-linux-".toList =
      ["x86_64".toList, "linux".toList].flatMap (· ++ ['-']) := by decide
  rw [IsLinux, startsWith, List.isPrefixOf_iff_prefix, hstart,
    Text.flatMap_isPrefix_iff (by simp)] at h
  obtain ⟨next, more, htokens⟩ := h
  have hwindows : "linux".toList ≠ "windows".toList := by decide
  have hx86 : "x86_64".toList ≠ "x86".toList := by decide
  rw [allocator, Allocator.find_eq htokens, if_neg hx86, if_pos rfl, if_neg fun h ↦ hwindows h.1]

/-- The target of `Host.linux` is one. -/
theorem Target.isLinux_linux : linux.IsLinux := by
  rw [IsLinux]
  decide

/-- An invoker comes from a signature that is read and compiled. -/
theorem Allocator.exists_of_ofSignature {a : Allocator} {signature : String} {inv : Invoker}
    (h : a.ofSignature signature = .ok inv) :
    ∃ p, Signature.parse a.wordSize signature = .ok p ∧ a.compile p = .ok inv := by
  unfold ofSignature at h
  split at h
  · cases h
  · next p hparse =>
    split at h
    · cases h
    · next hcompile =>
      cases h
      exact ⟨p, hparse, hcompile⟩

/-- A function is bound to the address of its symbol, with an invoker for its signature. -/
theorem Library.of_bind {l : Library} {loader : Loader} {name : String} {key : CacheKey}
    {identity : Nat} {f : BoundFunction} (h : l.bind loader name key identity = .ok f) :
    l.symbol loader name = .ok f.code ∧
      key.allocator.ofSignature key.signature = .ok f.invoker.value := by
  unfold bind at h
  split at h
  · cases h
  · next code hsymbol =>
    split at h
    · cases h
    · next hkey =>
      cases h
      exact ⟨hsymbol, hkey⟩

/-- A System V call with up to sixteen argument words is made: the words of the assembled image are
handed over, and the result is what native code leaves for them. -/
theorem Invoker.exists_call_eq_ok {inv : Invoker} (hc : inv.convention = .x64Unix)
    {words : List Word} (hl : words.length ≤ 16) (callee : Callee) :
    ∃ delivery, inv.deliver? (inv.assemble (.ofList words)) = some delivery ∧
      inv.call callee words =
        .ok (inv.ret.canonical (inv.returnClass.read (callee delivery))) :=
  ⟨_, deliver?_of_unix hc _, call_eq_of_deliver hl (deliver?_of_unix hc _) callee⟩

namespace Tool

/-! ### Arguments -/

/-- How the text of an argument comes to its word. What follows an at sign has no zero character,
and the word is the address of a block with it as a C string. Any other text is read as the word for
the type of its parameter. -/
inductive Converted (heap : Memory.Heap) (text : String) (t : Scalar) (w : Word) : Prop where
  | string (cs : List Char) (hat : text.toList = '@' :: cs) (hnul : '\x00' ∉ cs)
      (hcopy : ⟨w.toNat, Text.Utf8.encode cs ++ [0]⟩ ∈ heap.blocks)
  | value (hat : text.toList.head? ≠ some '@') (hread : readArgument text t = .ok w)

variable {system : Memory.Heap.System} {index : Nat} {text : String} {t : Scalar}
  {heap heap' : Memory.Heap} {w : Word} {ws : List Word} {pairs : List (String × Scalar)}

/-- What is converted stays so while its blocks are kept. -/
theorem Converted.mono (hkeep : heap.blocks ⊆ heap'.blocks) (h : Converted heap text t w) :
    Converted heap' text t w := by
  cases h with
  | string cs hat hnul hcopy => exact .string cs hat hnul (hkeep hcopy)
  | value hat hread => exact .value hat hread

/-- One conversion keeps the heap and gives the word of its argument. -/
theorem converted_of_convert (h : convert system index text t heap = .ok (w, heap')) :
    heap.blocks ⊆ heap'.blocks ∧ Converted heap' text t w := by
  unfold convert at h
  split at h
  · next cs hat =>
    split at h
    · next base heap'' hcopy =>
      cases h
      obtain ⟨hbase, hblocks, -⟩ := Memory.Heap.of_strdup hcopy
      refine ⟨?_, .string cs hat (Memory.Heap.not_nul_of_strdup hcopy) ?_⟩
      · rw [hblocks]
        exact List.subset_cons_self _ _
      · rw [BitVec.toNat_ofNat, Nat.mod_eq_of_lt hbase, hblocks]
        exact List.mem_cons_self
    · cases h
  · next hat =>
    split at h
    · next hread =>
      cases h
      refine ⟨List.Subset.refl _, .value (fun hhead ↦ ?_) hread⟩
      obtain ⟨cs, hcs⟩ := List.head?_eq_some_iff.mp hhead
      exact hat cs hcs
    · cases h

/-- Arguments that are converted one after the other give one word each, in their order. -/
theorem converted_of_convertAll (h : convertAll system index pairs heap = .ok (ws, heap')) :
    heap.blocks ⊆ heap'.blocks ∧
      List.Forall₂ (fun pair w ↦ Converted heap' pair.1 pair.2 w) pairs ws := by
  induction pairs generalizing index heap ws with
  | nil =>
    cases h
    exact ⟨List.Subset.refl _, .nil⟩
  | cons pair pairs ih =>
    obtain ⟨text, t⟩ := pair
    unfold convertAll at h
    split at h
    · cases h
    · next w heap'' hconvert =>
      split at h
      · cases h
      · next hrest =>
        cases h
        obtain ⟨hkeep, hword⟩ := converted_of_convert hconvert
        obtain ⟨hkeepRest, hwords⟩ := ih hrest
        exact ⟨List.Subset.trans hkeep hkeepRest, .cons (hword.mono hkeepRest) hwords⟩

/-! ### What a preparation is refused for -/

/-- A signature is never refused because of a call. -/
theorem ofSignature_ne_invocation (a : Allocator) (signature : String) (e : InvocationError) :
    a.ofSignature signature ≠ .error (.invocation e) := by
  intro h
  unfold Allocator.ofSignature at h
  split at h
  · cases h
  · split at h <;> cases h

/-- A function is never refused because of a call. -/
theorem bind_ne_invocation (library : Library) (loader : Loader) (name : String) (key : CacheKey)
    (identity : Nat) (e : InvocationError) :
    library.bind loader name key identity ≠ .error (.invocation e) := by
  intro h
  unfold Library.bind at h
  split at h
  · cases h
  · split at h
    · next hkey =>
      cases h
      exact ofSignature_ne_invocation _ _ _ hkey
    · cases h

/-- An attribute is never refused because of a call. -/
theorem resolveAttribute_ne_invocation (settings : Settings) (flag : Option String)
    (e : InvocationError) : resolveAttribute settings flag ≠ .error (.failure (.invocation e)) := by
  intro h
  unfold resolveAttribute at h
  split at h
  · next text =>
    cases hkeyword : Attribute.ofKeyword text <;> rw [hkeyword] at h <;> cases h
  · cases hsettings : settings.conventionAttr <;> rw [hsettings] at h <;> cases h

/-- An argument is never refused because of a call. -/
theorem convert_ne_invocation (e : InvocationError) :
    convert system index text t heap ≠ .error (.failure (.invocation e)) := by
  intro h
  unfold convert at h
  split at h <;> split at h <;> cases h

/-- Several arguments are never refused because of a call either. -/
theorem convertAll_ne_invocation (e : InvocationError) :
    convertAll system index pairs heap ≠ .error (.failure (.invocation e)) := by
  induction pairs generalizing index heap with
  | nil => nofun
  | cons pair pairs ih =>
    intro h
    unfold convertAll at h
    split at h
    · next hconvert =>
      cases h
      exact convert_ne_invocation e hconvert
    · split at h
      · next hrest =>
        cases h
        exact ih hrest
      · cases h

/-- The call of the self-test is made. -/
theorem selfTest_ne_invocation {host : Host} (hlinux : host.target.IsLinux) (e : InvocationError) :
    host.selfTest ≠ .error (.invocation e) := by
  intro h
  unfold Host.selfTest Target.selfTest at h
  rw [Target.allocator_of_isLinux hlinux] at h
  dsimp only at h
  split at h
  · next hsignature =>
    cases h
    exact ofSignature_ne_invocation _ _ _ hsignature
  · next inv hsignature =>
    obtain ⟨p, -, hcompile⟩ := Allocator.exists_of_ofSignature hsignature
    have hslots : Target.selfTestSlots.length ≤ 16 := by decide
    obtain ⟨d, -, hcall⟩ := Invoker.exists_call_eq_ok (Allocator.convention_of_compile hcompile)
      hslots host.selfTestCallee
    rw [hcall] at h
    dsimp only at h
    split at h <;> cases h

/-! ### Whole preparations -/

/-- All that a preparation can come to: the process fails its self-test, the attribute is unknown,
no library opens, the function cannot be bound, the number of arguments is another one, an argument
cannot be converted, or the call is prepared. -/
inductive Prepares (host : Host) (settings : Settings) (request : CallRequest) :
    Except Error PreparedCall → Prop where
  | untested (e : Failure) (htest : host.selfTest = .error e) :
      Prepares host settings request (.error (.failure e))
  | noAttribute (e : Error) (hattr : resolveAttribute settings request.convention = .error e) :
      Prepares host settings request (.error e)
  | noLibrary (e : LoadError) (hopen : openLibrary host.loader settings request.libs = .error e) :
      Prepares host settings request (.error (.failure (.loading e)))
  | unbound (library : Library) (e : Failure)
      (hbind : library.bind host.loader request.symbol ⟨.x64Unix, request.signature⟩ 0 =
        .error e) :
      Prepares host settings request (.error (.failure e))
  | arity (types : List Scalar) (harity : request.args.length ≠ types.length) :
      Prepares host settings request
        (.error (.arity request.signature types.length request.args.length))
  | noArgument (types : List Scalar) (e : Error)
      (hconvert : convertAll host.system 0 (request.args.zip types) .empty = .error e) :
      Prepares host settings request (.error e)
  | ready (attr : Attribute) (library : Library) (function : BoundFunction) (slots : List Word)
      (heap : Memory.Heap) (htest : host.selfTest = .ok ())
      (hattr : resolveAttribute settings request.convention = .ok attr)
      (hopen : openLibrary host.loader settings request.libs = .ok library)
      (hbind : library.bind host.loader request.symbol ⟨.x64Unix, request.signature⟩ 0 =
        .ok function)
      (harity : request.args.length = function.invoker.value.args.length)
      (hconvert : convertAll host.system 0 (request.args.zip function.invoker.value.args) .empty =
        .ok (slots, heap)) :
      Prepares host settings request (.ok ⟨function, slots, heap⟩)

variable {host : Host} {settings : Settings} {request : CallRequest} {call : PreparedCall}

/-- Setting up gives the process as it is detected, or what its self-test is refused with. -/
theorem setup_eq (host : Host) : host.setup = host.selfTest.map fun _ ↦ host.target := by
  rw [Host.setup]
  cases host.selfTest <;> rfl

/-- The steps of a preparation are made in this order, each after those before it. -/
theorem prepares (hlinux : host.target.IsLinux) (settings : Settings) (request : CallRequest) :
    Prepares host settings request (prepare host settings request) := by
  unfold prepare
  rw [setup_eq]
  cases htest : host.selfTest with
  | error e => exact .untested e htest
  | ok u =>
    dsimp only [Except.map]
    split
    · next e hattr => exact .noAttribute e hattr
    · next attr hattr =>
      rw [Target.allocator_of_isLinux hlinux]
      dsimp only
      split
      · next e hopen => exact .noLibrary e hopen
      · next library hopen =>
        split
        · next e hbind => exact .unbound library e hbind
        · next function hbind =>
          split
          · next harity => exact .arity _ harity
          · next harity =>
            split
            · next e hconvert => exact .noArgument _ e hconvert
            · next slots heap hconvert =>
              exact .ready attr library function slots heap htest hattr hopen hbind
                (Decidable.not_not.mp harity) hconvert

/-- No preparation is refused because of the call itself. -/
theorem prepare_ne_invocation (hlinux : host.target.IsLinux) (e : InvocationError) :
    prepare host settings request ≠ .error (.failure (.invocation e)) := by
  intro h
  have hprepares := prepares hlinux settings request
  rw [h] at hprepares
  cases hprepares with
  | untested e htest => exact selfTest_ne_invocation hlinux _ htest
  | noAttribute e hattr => exact resolveAttribute_ne_invocation _ _ _ hattr
  | unbound library e hbind => exact bind_ne_invocation _ _ _ _ _ _ hbind
  | noArgument types e hconvert => exact convertAll_ne_invocation _ hconvert

/-- What is known of a call that is prepared, with the prototype its signature is read as. -/
structure PreparedCall.Complete (host : Host) (settings : Settings) (request : CallRequest)
    (p : Prototype) (call : PreparedCall) : Prop where
  /-- The attribute is known, and stands for the convention of the process. -/
  convention : ∃ attr, resolveAttribute settings request.convention = .ok attr ∧
    host.target.allocator attr = .ok .x64Unix
  /-- The address is that of the symbol in the library of the call. -/
  symbol : ∃ library, openLibrary host.loader settings request.libs = .ok library ∧
    library.symbol host.loader request.symbol = .ok call.function.code
  /-- The signature is read. -/
  parsed : Signature.parse Allocator.x64Unix.wordSize request.signature = .ok p
  /-- The invoker is compiled for it. -/
  compiled : Allocator.x64Unix.compile p = .ok call.function.invoker.value
  /-- There are as many arguments as are declared. -/
  arity : request.args.length = p.args.length
  /-- Each argument is converted for its type. -/
  converted : List.Forall₂ (fun pair w ↦ Converted call.heap pair.1 pair.2 w)
    (request.args.zip p.args) call.slots
  /-- There is a word for each declared argument. -/
  length_slots : call.slots.length = p.args.length
  /-- There are no more than a call can carry. -/
  length_le : p.args.length ≤ 16

/-- A call that is prepared is complete. -/
theorem exists_complete_of_prepare (hlinux : host.target.IsLinux)
    (h : prepare host settings request = .ok call) :
    ∃ p, call.Complete host settings request p := by
  have hprepares := prepares hlinux settings request
  rw [h] at hprepares
  cases hprepares with
  | ready attr library function slots heap htest hattr hopen hbind harity hconvert =>
    obtain ⟨hsymbol, hsignature⟩ := Library.of_bind hbind
    obtain ⟨p, hparse, hcompile⟩ := Allocator.exists_of_ofSignature hsignature
    rw [Allocator.args_of_compile hcompile] at harity hconvert
    have hwords := (converted_of_convertAll hconvert).2
    have hlength := hwords.length_eq
    rw [List.length_zip, harity, Nat.min_self] at hlength
    exact ⟨p, {
      convention := ⟨attr, hattr, Target.allocator_of_isLinux hlinux attr⟩
      symbol := ⟨library, hopen, hsymbol⟩
      parsed := hparse
      compiled := hcompile
      arity := harity
      converted := hwords
      length_slots := hlength.symm
      length_le := (Allocator.compile_eq_ok_iff.mp hcompile).1 }⟩

/-- What the call of a prepared function comes to: the image assembled from its words is handed to
the code at its address, and the word is the result that this leaves, for the type of the result. -/
def PreparedCall.Returns (host : Host) (p : Prototype) (call : PreparedCall) (w : Word) : Prop :=
  ∃ delivery, call.function.invoker.value.deliver?
      (call.function.invoker.value.assemble (.ofList call.slots)) = some delivery ∧
    w = p.ret.canonical
      ((ReturnClass.ofScalar p.ret).read (host.machine call.heap call.function.code delivery))

/-- A complete call is made, and gives what native code leaves for its words. -/
theorem PreparedCall.Complete.exists_run {p : Prototype}
    (hcall : call.Complete host settings request p) :
    ∃ w, call.Returns host p w ∧ call.run host = .ok w := by
  obtain ⟨delivery, hdelivery, hrun⟩ := Invoker.exists_call_eq_ok
    (Allocator.convention_of_compile hcall.compiled)
    (by rw [hcall.length_slots]; exact hcall.length_le)
    (host.machine call.heap call.function.code)
  rw [Invoker.returnClass, Allocator.ret_of_compile hcall.compiled] at hrun
  exact ⟨_, ⟨delivery, hdelivery, rfl⟩, hrun⟩

/-- What is not prepared is not called. -/
theorem callFunction_of_error {e : Error} (h : prepare host settings request = .error e) :
    callFunction host settings request = ⟨"", some e⟩ := by
  simp only [callFunction, h, Outcome.ofExcept]

/-- The result of a call that is made is shown. -/
theorem callFunction_of_run {w : Word} (h : prepare host settings request = .ok call)
    (hrun : call.run host = .ok w) :
    callFunction host settings request =
      ⟨resultReport w call.function.invoker.value.ret, none⟩ := by
  simp only [callFunction, h, hrun, Outcome.ofExcept]

/-- On 64-bit Linux a call fails only while it is prepared, and never because of too many argument
words or of a convention that cannot be used. If it is prepared, then its signature is read and
compiled, there are as many arguments as it declares, at most sixteen, each argument is converted to
one word, and the call is made: the function at the address of the symbol is handed the image of
these words, and the result that is shown is its own. -/
theorem callFunction_fails_in_preparation (host : Host) (hlinux : host.target.IsLinux)
    (settings : Settings) (request : CallRequest) :
    (∀ e, (callFunction host settings request).error? = some e ↔
      prepare host settings request = .error e) ∧
    (∀ e, (callFunction host settings request).error? ≠ some (.failure (.invocation e))) ∧
    ∀ call, prepare host settings request = .ok call →
      ∃ p w, call.Complete host settings request p ∧ call.Returns host p w ∧
        call.run host = .ok w ∧
        callFunction host settings request = ⟨resultReport w p.ret, none⟩ := by
  have hmade (call : PreparedCall) (h : prepare host settings request = .ok call) :
      ∃ p w, call.Complete host settings request p ∧ call.Returns host p w ∧
        call.run host = .ok w ∧
        callFunction host settings request = ⟨resultReport w p.ret, none⟩ := by
    obtain ⟨p, hcall⟩ := exists_complete_of_prepare hlinux h
    obtain ⟨w, hreturns, hrun⟩ := hcall.exists_run
    refine ⟨p, w, hcall, hreturns, hrun, ?_⟩
    rw [callFunction_of_run h hrun, Allocator.ret_of_compile hcall.compiled]
  have herror (e : Error) : (callFunction host settings request).error? = some e ↔
      prepare host settings request = .error e := by
    cases hprepare : prepare host settings request with
    | error e' =>
      rw [callFunction_of_error hprepare]
      simp
    | ok call =>
      obtain ⟨p, w, -, -, -, hshown⟩ := hmade call hprepare
      rw [hshown]
      simp
  exact ⟨herror, fun e h ↦ prepare_ne_invocation hlinux e ((herror _).mp h), hmade⟩

/-- A text and a number for the C library: the text is copied to the heap and the number, which is
too wide for its type, is narrowed by the call. -/
theorem callFunction_fails_in_preparation_strnlen :
    Host.linux.target.IsLinux ∧
    ∃ call p w, prepare Host.linux .default
        ⟨"strnlen", "i(pI)", ["@seven", "0x100000003"], [], none⟩ = .ok call ∧
      call.slots = [0x10000, 0x100000003] ∧
      call.Complete Host.linux .default
        ⟨"strnlen", "i(pI)", ["@seven", "0x100000003"], [], none⟩ p ∧
      call.Returns Host.linux p w ∧ call.run Host.linux = .ok w ∧
      callFunction Host.linux .default
        ⟨"strnlen", "i(pI)", ["@seven", "0x100000003"], [], none⟩ =
          ⟨resultReport w p.ret, none⟩ := by
  have hlinux : Host.linux.target.IsLinux := Target.isLinux_linux
  have hslots : (prepare Host.linux .default
      ⟨"strnlen", "i(pI)", ["@seven", "0x100000003"], [], none⟩).map (·.slots) =
        .ok [0x10000, 0x100000003] := by decide +kernel
  obtain ⟨-, -, hmade⟩ := callFunction_fails_in_preparation Host.linux hlinux .default
    ⟨"strnlen", "i(pI)", ["@seven", "0x100000003"], [], none⟩
  generalize prepare Host.linux .default
    ⟨"strnlen", "i(pI)", ["@seven", "0x100000003"], [], none⟩ = prepared at hslots hmade ⊢
  cases prepared with
  | error e => cases hslots
  | ok call =>
    obtain ⟨p, w, hcall, hreturns, hrun, hshown⟩ := hmade call rfl
    exact ⟨hlinux, call, p, w, rfl, Except.ok.inj hslots, hcall, hreturns, hrun, hshown⟩

end Tool

end ForeignCall
