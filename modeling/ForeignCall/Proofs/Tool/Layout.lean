import ForeignCall.Proofs.Assignment.WellFormed
import ForeignCall.Proofs.Run
import ForeignCall.Proofs.Text.Words
import ForeignCall.Tool.Layout
import Mathlib.Data.List.Forall2

/-!
# Names of places

A layout names the places of the image by their slots alone: it knows where the stack starts, and
nothing of the registers an allocator may use or of the words of the stack in use. The names are
right all the same. A name stands for one slot, a register that is named is one the allocator may
use, and the words of the stack are named one after the other from the first. All this is said of
the lines as they are printed: the words of a line are an argument, its type, an arrow, the name of
a place and a move, and the place is what the word behind the arrow says.
-/

namespace ForeignCall

/-! ### Texts of moves -/

/-- The text of a word of the image separates nothing. -/
theorem Move.all_isSolid_destChars (dest : Fin 24) :
    (destChars dest).all Text.isSolid = true := by
  unfold destChars
  split
  · rw [List.all_cons, Text.decimal, Text.all_isSolid_toDigits (by decide) (by decide)]
    rfl
  · rw [List.all_cons, Text.decimal, Text.all_isSolid_toDigits (by decide) (by decide)]
    rfl

/-- The text of a move separates nothing. -/
theorem Move.all_isSolid_chars (m : Move) : m.chars.all Text.isSolid = true := by
  have hdecimal (n : Nat) : (Text.decimal n).all Text.isSolid = true :=
    Text.all_isSolid_toDigits (by decide) (by decide) n
  have hhexadecimal (n : Nat) : (Text.hexadecimal n).all Text.isSolid = true :=
    Text.all_isSolid_toDigits (by decide) (by decide) n
  have hmarks : Text.isSolid 'a' = true ∧ Text.isSolid '>' = true ∧ Text.isSolid '&' = true ∧
      Text.isSolid '0' = true ∧ Text.isSolid 'x' = true ∧ Text.isSolid '<' = true ∧
      Text.isSolid '-' = true := by decide
  have hoptional {p : Prop} [Decidable p] {part : List Char}
      (h : part.all Text.isSolid = true) :
      (if p then [] else part).all Text.isSolid = true := by
    split
    · rfl
    · exact h
  simp only [chars, List.all_append, List.all_cons, hdecimal, hhexadecimal, hmarks, hoptional,
    all_isSolid_destChars, Bool.and_self]

namespace Tool

namespace Place

/-! ### Slots of places -/

/-- The slot a place stands for, where the stack starts at a given slot. -/
def slot (stackStart : Nat) : Place → Nat
  | float k => 16 + k
  | general k => k
  | stack k => stackStart + k

/-- Whether a place is a register that the allocator may use or one of the first words of the
stack. -/
def InUse (a : Allocator) (stackWords : Nat) : Place → Prop
  | float k => k < a.floatCount
  | general k => k < a.generalCount
  | stack k => k < stackWords

/-- Whether a place is a word of the stack. -/
def isStack : Place → Bool
  | stack _ => true
  | _ => false

/-- The place of a slot: a floating-point register behind the general file, an integer register in
front of the stack, a word of the stack in the rest of the general file. -/
theorem ofSlot_cases (stackStart : Nat) (dest : Fin 24) :
    (16 ≤ dest.val ∧ ofSlot stackStart dest = .float (dest.val - 16)) ∨
      (dest.val < 16 ∧ dest.val < stackStart ∧ ofSlot stackStart dest = .general dest.val) ∨
      (dest.val < 16 ∧ stackStart ≤ dest.val ∧
        ofSlot stackStart dest = .stack (dest.val - stackStart)) := by
  unfold ofSlot
  split
  · next h => exact .inl ⟨h, rfl⟩
  · next h =>
    split
    · next hlow => exact .inr (.inl ⟨Nat.lt_of_not_le h, hlow, rfl⟩)
    · next hlow => exact .inr (.inr ⟨Nat.lt_of_not_le h, Nat.le_of_not_lt hlow, rfl⟩)

variable {stackStart k : Nat} {dest : Fin 24}

/-- The place of a slot stands for it. -/
theorem slot_ofSlot (stackStart : Nat) (dest : Fin 24) :
    (ofSlot stackStart dest).slot stackStart = dest.val := by
  rcases ofSlot_cases stackStart dest with ⟨h, he⟩ | ⟨h, hlow, he⟩ | ⟨h, hlow, he⟩ <;>
    rw [he, slot] <;> omega

/-- A slot is a floating-point register by its number behind the general file. -/
theorem ofSlot_eq_float_iff : ofSlot stackStart dest = .float k ↔ dest.val = 16 + k := by
  rcases ofSlot_cases stackStart dest with ⟨h, he⟩ | ⟨h, hlow, he⟩ | ⟨h, hlow, he⟩ <;>
    simp only [he, float.injEq, reduceCtorEq, false_iff] <;> omega

/-- A slot is an integer register by its number in front of the stack. -/
theorem ofSlot_eq_general_iff (hs : stackStart ≤ 16) :
    ofSlot stackStart dest = .general k ↔ dest.val = k ∧ k < stackStart := by
  rcases ofSlot_cases stackStart dest with ⟨h, he⟩ | ⟨h, hlow, he⟩ | ⟨h, hlow, he⟩ <;>
    simp only [he, general.injEq, reduceCtorEq, false_iff] <;> omega

/-- A slot is a word of the stack by its number in the rest of the general file. -/
theorem ofSlot_eq_stack_iff :
    ofSlot stackStart dest = .stack k ↔ dest.val = stackStart + k ∧ dest.val < 16 := by
  rcases ofSlot_cases stackStart dest with ⟨h, he⟩ | ⟨h, hlow, he⟩ | ⟨h, hlow, he⟩ <;>
    simp only [he, stack.injEq, reduceCtorEq, false_iff] <;> omega

/-- A word of the stack is in the general file, from where the stack starts. -/
theorem isStack_ofSlot (stackStart : Nat) (dest : Fin 24) :
    (ofSlot stackStart dest).isStack = (stackStart ≤ dest.val && dest.val < 16) := by
  rw [Bool.eq_iff_iff, Bool.and_eq_true, decide_eq_true_eq, decide_eq_true_eq]
  rcases ofSlot_cases stackStart dest with ⟨h, he⟩ | ⟨h, hlow, he⟩ | ⟨h, hlow, he⟩ <;>
    simp only [he, isStack, Bool.false_eq_true, false_iff, true_iff] <;> omega

/-! ### Texts of places -/

/-- Every place has a name of one of three kinds. -/
theorem exists_text_eq (p : Place) :
    ∃ k : Nat, p.text = s!"gp{k}" ∨ p.text = s!"fp{k}" ∨ p.text = s!"stack[{k}]" := by
  cases p with
  | general k => exact ⟨k, .inl rfl⟩
  | float k => exact ⟨k, .inr (.inl rfl)⟩
  | stack k => exact ⟨k, .inr (.inr rfl)⟩

/-- The name of a place, character by character. -/
theorem toList_text (p : Place) :
    p.text.toList =
      match p with
      | float k => "fp".toList ++ Nat.toDigits 10 k
      | general k => "gp".toList ++ Nat.toDigits 10 k
      | stack k => "stack[".toList ++ Nat.toDigits 10 k ++ "]".toList := by
  cases p <;> simp only [text, String.toList_append, Nat.toString_eq_repr, Nat.toList_repr] <;> rfl

/-- Different places have different names. -/
theorem text_inj {p q : Place} : p.text = q.text ↔ p = q := by
  refine ⟨fun h ↦ ?_, congrArg _⟩
  have hlist := String.toList_inj.mpr h
  rw [toList_text, toList_text] at hlist
  cases p <;> cases q <;> simp [Text.toDigits_inj] at hlist ⊢ <;> exact hlist

/-- The name of a place separates nothing. -/
theorem all_isSolid_text (p : Place) : p.text.toList.all Text.isSolid = true := by
  have hdigits (k : Nat) : (Nat.toDigits 10 k).all Text.isSolid = true :=
    Text.all_isSolid_toDigits (by decide) (by decide) k
  have hmarks : "gp".toList.all Text.isSolid = true ∧ "fp".toList.all Text.isSolid = true ∧
      "stack[".toList.all Text.isSolid = true ∧ "]".toList.all Text.isSolid = true := by decide
  rw [toList_text]
  cases p <;> simp only [List.all_append, hdigits, hmarks, Bool.and_self]

/-- The name of a place is not empty. -/
theorem text_ne_empty (p : Place) : p.text ≠ "" := by
  rw [← String.toList_inj.ne, toList_text]
  cases p <;> simp

/-- The names of words of the stack start alike, and no others do. -/
theorem startsWith_text (p : Place) : startsWith "stack[" p.text = p.isStack := by
  rw [startsWith, toList_text]
  cases p <;> rfl

end Place

/-! ### The lines of a layout -/

/-- The name of the place on a line: the word behind the arrow. -/
def label (line : String) : String := (Text.words line)[3]?.getD ""

/-- What a printed line says of the move that it is printed for. -/
structure Compiled.Describes (c : Compiled) (line : String) (m : Move) : Prop where
  /-- The line names the argument that the move reads, with its declared type, and the move. -/
  words : ∃ t, c.prototype.args[m.source.val]? = some t ∧
    Text.words line = [s!"arg{m.source.val}", t.name, "->", label line, m.text]
  /-- The name of the place is of one of three kinds. -/
  kind : ∃ k : Nat, label line = s!"gp{k}" ∨ label line = s!"fp{k}" ∨ label line = s!"stack[{k}]"
  /-- An integer register is named by its slot, and only registers in use are named. -/
  general : ∀ k : Nat, label line = s!"gp{k}" ↔
    m.dest.val = k ∧ k < c.allocator.generalCount
  /-- A floating-point register is named by its slot, and only registers in use are named. -/
  float : ∀ k : Nat, label line = s!"fp{k}" ↔
    m.dest.val = 16 + k ∧ k < c.allocator.floatCount
  /-- A word of the stack is named by its slot, and only words in use are named. -/
  stack : ∀ k : Nat, label line = s!"stack[{k}]" ↔
    m.dest.val = c.allocator.stackStart + k ∧ k < c.invoker.stackWords
  /-- The slot that is named holds what the move adds. -/
  image : ∀ slots : Slots, getElem (c.invoker.assemble slots) m.dest.val m.dest.isLt =
    m.value (slots.canonical c.prototype.args)

/-- The layout of a compiled signature as it is printed, held against the call. -/
structure Compiled.LaidOut (c : Compiled) : Prop where
  /-- The lines of the layout stand one below the other in the report, behind its head and in front
  of an empty line and the invoker. -/
  printed : Text.tokens '\n' c.report.toList =
    (c.head.map String.toList).flatMap (Text.tokens '\n') ++ c.printed.map String.toList ++
      [] :: Text.tokens '\n' c.invoker.text.toList ++ [[]]
  /-- The head ends with their title. -/
  title : c.head.getLast? = some "Commands:"
  /-- There is a line for each move, in the order of the moves. -/
  lines : List.Forall₂ c.Describes c.printed c.invoker.moves
  /-- Every declared argument is named by a line. -/
  complete : ∀ i < c.prototype.args.length, ∃ line ∈ c.printed,
    (Text.words line).head? = some s!"arg{i}"
  /-- The words of the stack are named from top to bottom, each once. -/
  stack_inOrder : (c.printed.map label).filter (startsWith "stack[") =
    (List.range c.invoker.stackWords).map fun k ↦ s!"stack[{k}]"
  /-- No name is printed twice. -/
  nodup : (c.printed.map label).Nodup
  /-- A slot that is not named holds zero. -/
  unnamed : ∀ (slots : Slots) (dest : Fin 24),
    (Place.ofSlot c.allocator.stackStart dest).text ∉ c.printed.map label →
      getElem (c.invoker.assemble slots) dest.val dest.isLt = 0

/-- What a signature is compiled from. -/
theorem of_compileRequest {detected : Target} {settings : Settings} {request : LayoutRequest}
    {c : Compiled} (h : compileRequest detected settings request = .ok c) :
    resolveTarget detected settings request.archOs = .ok c.target ∧
      resolveAttribute settings request.convention = .ok c.attr ∧
      c.target.allocator c.attr = .ok c.allocator ∧
      Signature.parse c.allocator.wordSize request.signature = .ok c.prototype ∧
      c.allocator.compile c.prototype = .ok c.invoker := by
  unfold compileRequest at h
  split at h
  · cases h
  · next target htarget =>
    split at h
    · cases h
    · next attr hattr =>
      split at h
      · cases h
      · next allocator hallocator =>
        split at h
        · cases h
        · next prototype hparse =>
          split at h
          · cases h
          · next invoker hcompile =>
            cases h
            exact ⟨htarget, hattr, hallocator, hparse, hcompile⟩

/-- What is compiled is reported. -/
theorem showLayout_of_ok {detected : Target} {settings : Settings} {request : LayoutRequest}
    {c : Compiled} (h : compileRequest detected settings request = .ok c) :
    showLayout detected settings request = ⟨c.report, none⟩ := by
  simp only [showLayout, h, Except.map, Outcome.ofExcept]

/-! ### Printed lines -/

namespace LayoutLine

/-- The name of an argument, character by character. -/
theorem toList_argument (n : Nat) :
    (s!"arg{n}").toList = 'a' :: 'r' :: 'g' :: Nat.toDigits 10 n := by
  simp only [String.toList_append, Nat.toString_eq_repr, Nat.toList_repr]
  rfl

/-- The name of an argument separates nothing. -/
theorem all_isSolid_argument (n : Nat) : (s!"arg{n}").toList.all Text.isSolid = true := by
  have hletters : Text.isSolid 'a' = true ∧ Text.isSolid 'r' = true ∧ Text.isSolid 'g' = true := by
    decide
  simp only [toList_argument, List.all_cons, hletters, Bool.and_self,
    Text.all_isSolid_toDigits (show 1 < 10 by decide) (by decide)]

/-- The name of a type separates nothing. -/
theorem all_isSolid_name (t : Scalar) : t.name.toList.all Text.isSolid = true := by
  cases t <;> decide

variable {line : LayoutLine} {t : Scalar}

/-- The text of a line with a type, cut into its words. -/
theorem text_eq (ht : line.type? = some t) : line.text = "" ++ " " ++ "" ++ " " ++
    (s!"arg{line.argument}" ++ Text.spaces (3 - (toString line.argument).length)) ++ " " ++
      Text.padRight 4 t.name ++ " " ++ "->" ++ " " ++ Text.padRight 10 line.place.text ++ " " ++
      line.move.text := by
  apply String.toList_inj.mp
  simp [text, ht, Text.padRight]
  rfl

/-- The words of a line with a type are its argument, the type, an arrow, its place and its move. -/
theorem words_text (ht : line.type? = some t) : Text.words line.text =
    [s!"arg{line.argument}", t.name, "->", line.place.text, line.move.text] := by
  have hargument : s!"arg{line.argument}" ≠ "" := by
    rw [← String.toList_inj.ne, toList_argument]
    nofun
  have hname : t.name ≠ "" := by cases t <;> decide
  have hmove : line.move.text ≠ "" := by
    simp [← String.toList_inj.ne, Move.text, Move.chars]
  have hsolid : line.move.text.toList.all Text.isSolid = true := by
    rw [Move.text, String.toList_ofList, Move.all_isSolid_chars]
  rw [text_eq ht]
  simp only [Text.words_append_space]
  rw [Text.words_append_spaces hargument (all_isSolid_argument _),
    Text.words_padRight hname (all_isSolid_name t),
    Text.words_padRight line.place.text_ne_empty line.place.all_isSolid_text,
    Text.words_of_isSolid hmove hsolid]
  rfl

/-- The place that is named on a line is its own. -/
theorem label_text (ht : line.type? = some t) : label line.text = line.place.text := by
  rw [label, words_text ht]
  rfl

/-- A line has no line break in it. -/
theorem newline_not_mem_text (ht : line.type? = some t) : '\n' ∉ line.text.toList := by
  have hspaces (n : Nat) : '\n' ∉ (Text.spaces n).toList := by
    simp [Text.spaces]
  have hmove : '\n' ∉ line.move.text.toList := by
    rw [Move.text, String.toList_ofList]
    exact Text.newline_not_mem (Move.all_isSolid_chars _)
  have hargument := Text.newline_not_mem (all_isSolid_argument line.argument)
  rw [text_eq ht]
  generalize s!"arg{line.argument}" = name at hargument ⊢
  simp [Text.padRight, hspaces, hmove, hargument, Text.newline_not_mem (all_isSolid_name t),
    Text.newline_not_mem line.place.all_isSolid_text]

end LayoutLine

section Lines

variable {a : Allocator} {p : Prototype} {d : Draft} {inv : Invoker} {m : Move}

/-- The names that are printed are those of the slots that the moves go to. -/
theorem map_label_layout (hsource : ∀ m ∈ inv.moves, m.source.val < p.args.length) :
    ((layout a p inv).map LayoutLine.text).map label =
      inv.moves.map fun m ↦ (Place.ofSlot a.stackStart m.dest).text := by
  rw [layout, List.map_map, List.map_map]
  refine List.map_congr_left fun m hm ↦ ?_
  have htype := List.getElem?_eq_getElem (hsource m hm)
  rw [Function.comp_apply, Function.comp_apply, LayoutLine.label_text htype]

/-- The names of words of the stack are those of the moves to them. -/
theorem filter_stack_moves (a : Allocator) (moves : List Move) :
    (moves.map fun m ↦ (Place.ofSlot a.stackStart m.dest).text).filter (startsWith "stack[") =
      (a.stackPlaces moves).map fun k ↦ s!"stack[{k - a.stackStart}]" := by
  have hstack (m : Move) : startsWith "stack[" (Place.ofSlot a.stackStart m.dest).text =
      (a.stackStart ≤ m.dest.val && m.dest.val < 16) := by
    rw [Place.startsWith_text, Place.isStack_ofSlot]
  simp only [Allocator.stackPlaces, List.map_map, List.filter_map, Function.comp_def, hstack]
  refine List.map_congr_left fun m hm ↦ ?_
  have hplace := (List.mem_filter.mp hm).2
  rw [Bool.and_eq_true, decide_eq_true_eq, decide_eq_true_eq] at hplace
  have hslot : Place.ofSlot a.stackStart m.dest = .stack (m.dest.val - a.stackStart) :=
    Place.ofSlot_eq_stack_iff.mpr ⟨by omega, hplace.2⟩
  rw [hslot]
  rfl

/-- Lines without line breaks stand one below the other in a report, behind its head and in front of
an empty line and the invoker. -/
theorem tokens_report {c : Compiled} (hlines : ∀ line ∈ c.printed, '\n' ∉ line.toList) :
    Text.tokens '\n' c.report.toList =
      (c.head.map String.toList).flatMap (Text.tokens '\n') ++ c.printed.map String.toList ++
        [] :: Text.tokens '\n' c.invoker.text.toList ++ [[]] := by
  have hreport : c.report.toList =
      ((c.head ++ c.printed ++ ["", c.invoker.text]).map String.toList).flatMap (· ++ ['\n']) ++
        [] := by
    rw [Compiled.report, String.toList_join, List.flatMap_map, List.flatMap_map, List.append_nil]
    exact congrArg (List.flatMap · _) (funext fun line ↦ String.toList_append)
  have hprinted : (c.printed.map String.toList).flatMap (Text.tokens '\n') =
      c.printed.map String.toList := by
    rw [List.flatMap_map, List.map_eq_flatMap]
    exact List.flatMap_congr fun line hline ↦ Text.tokens_of_not_mem (hlines line hline)
  have hempty : Text.tokens '\n' "".toList = [[]] := rfl
  rw [hreport, Text.tokens_flatMap]
  simp only [List.map_append, List.flatMap_append, List.map_cons, List.map_nil, List.flatMap_cons,
    List.flatMap_nil, List.append_nil, hprinted, hempty, List.cons_append, List.nil_append]
  rfl

/-- A move of a sound draft is named after the place that its slot stands for, and that place is in
use. -/
theorem text_eq_iff (hd : d.Sound a p (Allocator.numbered p.args)) (hm : m ∈ d.moves)
    (q : Place) : (Place.ofSlot a.stackStart m.dest).text = q.text ↔
      m.dest.val = q.slot a.stackStart ∧ q.InUse a d.cursor.stack := by
  obtain ⟨hg, hs, -⟩ := a.places_le
  have hdest := hd.dest_cases hm
  have hstack := hd.stack_le
  rw [Place.text_inj]
  cases q with
  | float k =>
    rw [Place.ofSlot_eq_float_iff, Place.slot, Place.InUse]
    omega
  | general k =>
    rw [Place.ofSlot_eq_general_iff (by omega), Place.slot, Place.InUse]
    omega
  | stack k =>
    rw [Place.ofSlot_eq_stack_iff, Place.slot, Place.InUse]
    omega

/-- Every declared argument is read by a move of a sound draft. -/
theorem exists_source_eq (hfit : p.args.length ≤ 16)
    (hd : d.Sound a p (Allocator.numbered p.args)) {i : Nat} (hi : i < p.args.length) :
    ∃ m ∈ d.moves, m.source.val = i := by
  obtain ⟨h16, hmem⟩ :=
    Allocator.mem_numbered_of_getElem? hfit (List.getElem?_eq_getElem hi)
  have hpos : 0 < (a.shifts p.args[i]).length := by
    rw [Allocator.length_shifts]
    split <;> omega
  obtain ⟨dest, hm⟩ := hd.carried _ hmem _ (List.getElem_mem hpos)
  exact ⟨_, hm, rfl⟩

/-- The line of a move describes it. -/
theorem describes_of_sound (hd : d.Sound a p (Allocator.numbered p.args)) (hm : m ∈ d.moves)
    (hsource : m.source.val < p.args.length) (target : Target) (attr : Attribute) :
    Compiled.Describes ⟨target, attr, a, p, a.finish p d⟩
      (LayoutLine.text ⟨m.source.val, p.args[m.source.val]?, .ofSlot a.stackStart m.dest, m⟩) m := by
  have htype : p.args[m.source.val]? = some p.args[m.source.val] :=
    List.getElem?_eq_getElem hsource
  have hlabel : label (LayoutLine.text
      ⟨m.source.val, p.args[m.source.val]?, .ofSlot a.stackStart m.dest, m⟩) =
        (Place.ofSlot a.stackStart m.dest).text := LayoutLine.label_text htype
  constructor
  case words =>
    refine ⟨_, htype, ?_⟩
    rw [hlabel]
    exact LayoutLine.words_text htype
  case kind =>
    rw [hlabel]
    exact Place.exists_text_eq _
  case general =>
    intro k
    rw [hlabel]
    exact text_eq_iff hd hm (.general k)
  case float =>
    intro k
    rw [hlabel]
    exact text_eq_iff hd hm (.float k)
  case stack =>
    intro k
    rw [hlabel]
    exact text_eq_iff hd hm (.stack k)
  case image =>
    intro slots
    refine (Move.getElem_run_of_mem hd.distinct hm (slots.canonical p.args) .zero).trans ?_
    rw [Image.getElem_zero, BitVec.zero_or]

/-- The layout of a compiled prototype is right. -/
theorem laidOut_of_compile (h : a.compile p = .ok inv) (target : Target) (attr : Attribute) :
    Compiled.LaidOut ⟨target, attr, a, p, inv⟩ := by
  have hfit := (Allocator.compile_eq_ok_iff.mp h).1
  have hl := Allocator.length_numbered hfit
  obtain ⟨d, hd, ho, rfl⟩ := Draft.InOrder.of_compile h
  have hsource (m : Move) (hm : m ∈ d.moves) : m.source.val < p.args.length :=
    hl ▸ ho.source_lt m hm
  have hlabels : ((layout a p (a.finish p d)).map LayoutLine.text).map label =
      d.moves.map fun m ↦ (Place.ofSlot a.stackStart m.dest).text := map_label_layout hsource
  constructor
  case printed =>
    refine tokens_report (List.forall_mem_map.mpr (List.forall_mem_map.mpr fun m hm ↦ ?_))
    exact LayoutLine.newline_not_mem_text (List.getElem?_eq_getElem (hsource m hm))
  case title => rfl
  case lines =>
    rw [Compiled.printed, layout, List.map_map, List.forall₂_map_left_iff, List.forall₂_same]
    intro m hm
    exact describes_of_sound hd hm (hsource m hm) target attr
  case complete =>
    intro i hi
    obtain ⟨m, hm, rfl⟩ := exists_source_eq hfit hd hi
    refine ⟨_, List.mem_map_of_mem (List.mem_map_of_mem hm), ?_⟩
    rw [LayoutLine.words_text (List.getElem?_eq_getElem hi)]
    rfl
  case stack_inOrder =>
    rw [Compiled.printed, hlabels, filter_stack_moves,
      show a.stackPlaces d.moves = _ from ho.stack, List.range'_eq_map_range, List.map_map]
    simp only [Function.comp_def, Nat.add_sub_cancel_left]
    rfl
  case nodup =>
    rw [Compiled.printed, hlabels]
    have hdistinct := hd.distinct
    rw [List.nodup_iff_pairwise_ne, List.pairwise_map] at hdistinct ⊢
    refine hdistinct.imp fun hne htext ↦ hne ?_
    have hslot := congrArg (Place.slot a.stackStart) (Place.text_inj.mp htext)
    rw [Place.slot_ofSlot, Place.slot_ofSlot] at hslot
    exact Fin.ext hslot
  case unnamed =>
    intro slots dest hnot
    rw [Compiled.printed, hlabels] at hnot
    refine (Move.getElem_run_of_forall_ne (fun m hm heq ↦ hnot ?_) (slots.canonical p.args) .zero
      dest.isLt).trans (Image.getElem_zero dest.val dest.isLt)
    rw [← Fin.ext heq]
    exact List.mem_map_of_mem hm

end Lines

/-- A layout that is shown is that of the call: if the command succeeds, it prints the report on the
signature it has compiled, and each line of it names a declared argument with its type and, by its
slot, the register or the word of the stack that the argument is moved to. -/
theorem showLayout_laidOut (detected : Target) (settings : Settings) (request : LayoutRequest)
    (h : (showLayout detected settings request).error? = none) :
    ∃ c : Compiled, compileRequest detected settings request = .ok c ∧
      (showLayout detected settings request).stdout = c.report ∧
      c.target.allocator c.attr = .ok c.allocator ∧
      Signature.parse c.allocator.wordSize request.signature = .ok c.prototype ∧
      c.allocator.compile c.prototype = .ok c.invoker ∧ c.LaidOut := by
  cases hc : compileRequest detected settings request with
  | error e =>
    rw [showLayout, hc] at h
    cases h
  | ok c =>
    obtain ⟨-, -, hallocator, hparse, hcompile⟩ := of_compileRequest hc
    refine ⟨c, rfl, ?_, hallocator, hparse, hcompile,
      laidOut_of_compile hcompile c.target c.attr⟩
    rw [showLayout_of_ok hc]

/-- A Microsoft x64 call with floats that are copied and two arguments on the stack. -/
theorem showLayout_laidOut_windows :
    (showLayout .linux .default ⟨"v(pdifil)", none, some "x86_64-Windows-msvc"⟩).error? = none ∧
    ∃ c : Compiled, c.LaidOut ∧
      (showLayout .linux .default ⟨"v(pdifil)", none, some "x86_64-Windows-msvc"⟩).stdout =
        c.report ∧
      c.printed.map (fun line ↦ (Text.words line).take 4) =
        [["arg0", "i64", "->", "gp0"], ["arg1", "f64", "->", "fp1"],
          ["arg1", "f64", "->", "gp1"], ["arg2", "i32", "->", "gp2"],
          ["arg3", "f32", "->", "fp3"], ["arg3", "f32", "->", "gp3"],
          ["arg4", "i32", "->", "stack[0]"], ["arg5", "i64", "->", "stack[1]"]] := by
  have hshown : (showLayout .linux .default
      ⟨"v(pdifil)", none, some "x86_64-Windows-msvc"⟩).error? = none := by decide +kernel
  have hlines : (compileRequest .linux .default
      ⟨"v(pdifil)", none, some "x86_64-Windows-msvc"⟩).toOption.map
        (fun c ↦ c.printed.map fun line ↦ (Text.words line).take 4) =
      some [["arg0", "i64", "->", "gp0"], ["arg1", "f64", "->", "fp1"],
          ["arg1", "f64", "->", "gp1"], ["arg2", "i32", "->", "gp2"],
          ["arg3", "f32", "->", "fp3"], ["arg3", "f32", "->", "gp3"],
          ["arg4", "i32", "->", "stack[0]"], ["arg5", "i64", "->", "stack[1]"]] := by decide +kernel
  obtain ⟨c, hc, hreport, -, -, -, hlaidOut⟩ := showLayout_laidOut _ _ _ hshown
  rw [hc] at hlines
  exact ⟨hshown, c, hlaidOut, hreport, Option.some.inj hlines⟩

end ForeignCall.Tool
