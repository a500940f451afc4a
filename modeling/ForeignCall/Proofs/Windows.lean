import ForeignCall.Proofs.Assignment.Positions
import ForeignCall.Proofs.Call

/-!
# Words of a Microsoft x64 call

What a Microsoft x64 callee finds under the preset for that convention. Every prototype that a
call can carry compiles; position by position the callee finds the argument of that number, in a
floating-point register exactly if it is a float outside the variadic part among the first four.
The image keeps a copy of each of the first four in the general file, where a variadic callee
looks for its floats.
-/

namespace ForeignCall.Allocator

private theorem shadows_x64Windows : x64Windows.shadows = true := by decide

private theorem position_x64Windows (k : Nat) : x64Windows.position k = k := by
  change (if k < 4 then k else 4 + (k - 4)) = k
  split <;> omega

section Preset

variable {p : Prototype} {inv : Invoker} (h : x64Windows.compile p = .ok inv)
include h

private theorem general_x64Windows (words : List Word) (k : Fin 16) :
    (inv.assemble (.ofList words)).general k = p.wordAt words k.val := by
  by_cases hk : k.val < p.args.length
  · obtain ⟨x, hx, hxk⟩ := Prototype.exists_mem_numbered hk k.isLt
    rw [← hxk, Prototype.wordAt_of_mem hx]
    exact getElem_position shadows_x64Windows h hx words (by rw [position_x64Windows, hxk])
  · rw [Prototype.wordAt_of_length_le (by omega)]
    exact general_of_length_le shadows_x64Windows h words (by rw [position_x64Windows]; omega)

private theorem float_x64Windows (words : List Word) (k : Fin 8) (hk : k.val < 4) :
    (inv.assemble (.ofList words)).float k =
      if p.isFloatAt k.val then p.wordAt words k.val else 0 := by
  have h16 : k.val < 16 := by omega
  split
  · next hf =>
    obtain ⟨x, hx, hxk, hxf⟩ := (Prototype.isFloatAt_iff h16).mp hf
    rw [← hxk, Prototype.wordAt_of_mem hx]
    exact float_of_isFloat shadows_x64Windows h hx hxf (by rw [hxk]; exact hk) words hxk.symm
  · next hf =>
    apply float_of_forall_ne shadows_x64Windows h words
    intro x hx hxf hxk
    exact hf ((Prototype.isFloatAt_iff h16).mpr ⟨x, hx, hxk, hxf⟩)

private theorem fixedFloats_x64Windows (k : Nat) (hk : k < 4) :
    inv.fixedFloats.getLsbD k = true ↔ p.isFloatAt k = true ∧ p.isVariadicAt k = false := by
  rw [fixedFloats_iff_of_shadows shadows_x64Windows h (by omega),
    Prototype.isFloatAt_iff (by omega)]
  constructor
  · rintro ⟨x, hx, hxk, -, hf, hv⟩
    exact ⟨⟨x, hx, hxk, hf⟩, hv⟩
  · rintro ⟨⟨x, hx, hxk, hf⟩, hv⟩
    exact ⟨x, hx, hxk, hk, hf, hv⟩

end Preset

/-- Every prototype that a call can carry compiles for Microsoft x64, and a callee finds each
argument at its position. -/
theorem windows_call_by_position {p : Prototype} (hl : p.args.length ≤ 16) :
    ∃ inv, x64Windows.compile p = .ok inv ∧ ∀ words : List Word, words.length ≤ 16 →
      (∃ positions : Vector Carried 16,
        (∀ callee : Callee, inv.call callee words =
          .ok (inv.ret.canonical (inv.returnClass.read (callee (.windows positions))))) ∧
        ∀ k : Fin 16, positions[k.val] =
          if k.val < 4 ∧ p.isFloatAt k.val = true ∧ p.isVariadicAt k.val = false then
            .float (p.wordAt words k.val)
          else .general (p.wordAt words k.val)) ∧
      ∀ (k : Nat) (hk : k < 4), k < p.args.length →
        (inv.assemble (.ofList words)).general ⟨k, by omega⟩ = p.wordAt words k ∧
        (inv.assemble (.ofList words)).float ⟨k, by omega⟩ =
          if p.isFloatAt k then p.wordAt words k else 0 := by
  obtain ⟨inv, h⟩ := exists_compile_of_shadows shadows_x64Windows hl (by
    change 4 + (p.args.length - 4) ≤ 16
    omega)
  refine ⟨inv, h, fun words hw ↦ ⟨?_, ?_⟩⟩
  · refine ⟨_, Invoker.call_eq_of_deliver hw
      (Invoker.deliver?_of_windows (convention_of_compile h) _), ?_⟩
    intro k
    rw [Vector.getElem_ofFn, Invoker.windowsPosition]
    by_cases hk : k.val < 4
    · have hbit := fixedFloats_x64Windows h k.val hk
      simp only [hk, dite_true, true_and, hbit]
      split
      · next hf => rw [float_x64Windows h words _ hk, if_pos hf.1]
      · rw [general_x64Windows h]
    · simp only [hk, dite_false, false_and, ite_false, general_x64Windows h]
  · intro k hk _
    exact ⟨general_x64Windows h words _, float_x64Windows h words _ hk⟩

/-- A call with two fixed arguments and three variadic ones: the fixed float is in its
floating-point register, the variadic floats are where integers go. -/
theorem windows_call_variadic_floats :
    ∃ inv, x64Windows.compile ⟨.i32, [.u64, .f64, .f64, .i16, .f32], some 2, by decide⟩ = .ok inv ∧
      ∃ positions : Vector Carried 16,
        (∀ callee : Callee, inv.call callee [1, 2, 3, 0xFFFF, 5] =
          .ok (inv.ret.canonical (inv.returnClass.read (callee (.windows positions))))) ∧
        positions[0] = .general 1 ∧ positions[1] = .float 2 ∧ positions[2] = .general 3 ∧
        positions[3] = .general 0xFFFFFFFFFFFFFFFF ∧ positions[4] = .general 5 ∧
        positions[5] = .general 0 := by
  obtain ⟨inv, h, hall⟩ := windows_call_by_position
    (p := ⟨.i32, [.u64, .f64, .f64, .i16, .f32], some 2, by decide⟩) (by decide)
  obtain ⟨⟨positions, hcall, hp⟩, -⟩ := hall [1, 2, 3, 0xFFFF, 5] (by decide)
  exact ⟨inv, h, positions, hcall, (hp 0).trans (by decide), (hp 1).trans (by decide),
    (hp 2).trans (by decide), (hp 3).trans (by decide), (hp 4).trans (by decide),
    (hp 5).trans (by decide)⟩

end ForeignCall.Allocator
