import Overlay.Handler
import Overlay.Proofs.Block.Hello
import Overlay.Proofs.Block.Name

/-! What a registry reads as a block is the written form of that block. -/
namespace Overlay

namespace Handler

theorem kind_injective : Function.Injective kind := by
  intro h h' same
  cases h <;> cases h' <;> first | rfl | exact absurd same (by decide)

theorem written_of_parseBlock {h : Handler} {data : Bytes} {b : Block}
    (parsed : h.parseBlock data = .ok b) : b.kind = h.kind ∧ b.bytes = data := by
  cases h with
  | test =>
    obtain rfl := Except.ok.inj parsed
    exact ⟨rfl, rfl⟩
  | hello =>
    obtain ⟨hello, decoded, rfl⟩ := map_eq_ok_iff.1 parsed
    exact ⟨rfl, (Hello.eq_bytes_of_decode decoded).1.symm⟩
  | name =>
    obtain ⟨name, decoded, rfl⟩ := map_eq_ok_iff.1 parsed
    exact ⟨rfl, (NameBlock.eq_bytes_of_decode decoded).1.symm⟩

theorem isSound_iff {C : Curve} {now : Timestamp} {b : Block} :
    isSound C now b ↔ ¬ b.expiration.isExpired now ∧ b.verify C = .ok true := by
  rw [isSound]
  rcases b.verify C with fault | valid <;> simp

end Handler

namespace Registry

theorem find?_eq_none_iff {r : Registry} {k : BlockKind} :
    r.find? k = none ↔ ∀ h ∈ r.handlers, h.kind ≠ k := by
  simp [find?]

theorem find?_eq_some_iff {r : Registry} {k : BlockKind} {h : Handler} :
    r.find? k = some h ↔ h ∈ r.handlers ∧ h.kind = k := by
  have held {h' : Handler} (found : r.find? k = some h') : h' ∈ r.handlers ∧ h'.kind = k := by
    rw [find?] at found
    exact ⟨List.mem_of_find?_eq_some found, by simpa using List.find?_some found⟩
  constructor
  · exact held
  · intro ⟨member, kind⟩
    cases found : r.find? k with
    | none => exact absurd kind (find?_eq_none_iff.1 found h member)
    | some h' => rw [Handler.kind_injective ((held found).2.trans kind.symm)]

theorem mem_handlers_register {r : Registry} {h h' : Handler} :
    h' ∈ (r.register h).handlers ↔ h' ∈ r.handlers ∨ h' = h := by
  rw [register]
  split
  · next known =>
    refine ⟨.inl, ?_⟩
    intro member
    cases member with
    | inl member => exact member
    | inr same => exact same ▸ known
  · rw [List.mem_append, List.mem_singleton]

def ofHandlers (handlers : List Handler) : Registry := handlers.foldl register empty

theorem mem_handlers_foldl_register {handlers : List Handler} {r : Registry} {h : Handler} :
    h ∈ (handlers.foldl register r).handlers ↔ h ∈ r.handlers ∨ h ∈ handlers := by
  induction handlers generalizing r with
  | nil => simp
  | cons first rest ih =>
    rw [List.foldl_cons, ih, mem_handlers_register, List.mem_cons, or_assoc]

theorem mem_handlers_ofHandlers {handlers : List Handler} {h : Handler} :
    h ∈ (ofHandlers handlers).handlers ↔ h ∈ handlers := by
  rw [ofHandlers, mem_handlers_foldl_register]
  exact or_iff_right List.not_mem_nil

/-- A block is read by the handler of its kind, if that was registered. Any other is content
without rules. -/
theorem parseBlock_ofHandlers_eq_ok_iff {handlers : List Handler} {k : BlockKind} {data : Bytes}
    {b : Block} :
    (ofHandlers handlers).parseBlock k data = .ok b ↔
      (∃ h ∈ handlers, h.kind = k ∧ h.parseBlock data = .ok b) ∨
        (∀ h ∈ handlers, h.kind ≠ k) ∧ b = .untyped ⟨k, .never, data⟩ := by
  rw [parseBlock]
  cases found : (ofHandlers handlers).find? k with
  | none =>
    have unknown (h : Handler) (member : h ∈ handlers) : h.kind ≠ k :=
      find?_eq_none_iff.1 found h (mem_handlers_ofHandlers.2 member)
    have none : ¬ ∃ h ∈ handlers, h.kind = k ∧ h.parseBlock data = .ok b := by
      intro ⟨h, member, kind, _⟩
      exact unknown h member kind
    rw [or_iff_right none, and_iff_right unknown]
    exact ⟨fun same => (Except.ok.inj same).symm, fun same => congrArg Except.ok same.symm⟩
  | some h =>
    obtain ⟨member, kind⟩ := find?_eq_some_iff.1 found
    have known := mem_handlers_ofHandlers.1 member
    constructor
    · intro parsed
      exact .inl ⟨h, known, kind, parsed⟩
    · intro parsed
      cases parsed with
      | inl parsed =>
        obtain ⟨h', -, kind', parsed⟩ := parsed
        rwa [Handler.kind_injective (kind'.trans kind.symm)] at parsed
      | inr unknown => exact absurd kind (unknown.1 h known)

theorem written_of_parseBlock {handlers : List Handler} {k : BlockKind} {data : Bytes} {b : Block}
    (parsed : (ofHandlers handlers).parseBlock k data = .ok b) : b.kind = k ∧ b.bytes = data := by
  cases parseBlock_ofHandlers_eq_ok_iff.1 parsed with
  | inl read =>
    obtain ⟨h, -, kind, read⟩ := read
    obtain ⟨kindOf, bytes⟩ := Handler.written_of_parseBlock read
    exact ⟨kindOf.trans kind, bytes⟩
  | inr unknown => exact unknown.2 ▸ ⟨rfl, rfl⟩

end Registry
end Overlay
