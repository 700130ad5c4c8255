import Overlay.Handler
import Overlay.Proofs.Filter.Bloom
import Overlay.Proofs.Filter.Size

/-! What a lookup has been given once, it is not given again. A filter only gains positions
while its lookup lasts, whatever blocks are judged with it, whichever filters are merged into
it, and however often it is sent on. -/
namespace Overlay

namespace Bloom

/-- The filters of lookups: there is a mutator in them. -/
structure Usable (f : Bloom) : Prop extends f.Sound where
  mutated : f.mutator.isSome

theorem Usable.of_within {f g : Bloom} (usable : f.Usable) (within : f.Within g) : g.Usable :=
  ⟨usable.toSound.of_within within, within.mutator_eq ▸ usable.mutated⟩

end Bloom

namespace ResultFilter

/-- The filters that a lookup starts with: a new one, or one that was sent along with it. -/
inductive Initial : ResultFilter → Prop
  | sized (expected : Nat) (mutator : UInt32) : Initial (.sized expected mutator)
  | decoded {b : Bytes} {f : ResultFilter} (read : decode b = .ok f) : Initial f

theorem Initial.exists_usable {f : ResultFilter} (initial : f.Initial) :
    ∃ bloom : Bloom, f = .seen bloom ∧ bloom.Usable := by
  cases initial with
  | sized expected mutator =>
    exact ⟨_, rfl, Bloom.sound_empty (Bloom.sizeFor_pos expected) _, rfl⟩
  | decoded read =>
    obtain ⟨bloom, bloomRead, rfl⟩ := map_eq_ok_iff.1 read
    obtain ⟨-, mutated, sound⟩ := Bloom.eq_bytes_of_decode bloomRead
    exact ⟨bloom, rfl, sound, mutated⟩

theorem add_of_filterKey_eq_none {f : ResultFilter} {b : Block} (keyless : b.filterKey = none) :
    f.add b = f := by
  cases f <;> simp [add, keyless]

theorem contains_of_filterKey_eq_none {f : ResultFilter} {b : Block}
    (keyless : b.filterKey = none) : f.contains b = false := by
  simp [contains, keyless]

theorem contains_of_filterKey_eq_some {f : ResultFilter} {b : Block} {key : Digest}
    (keyed : b.filterKey = some key) : f.contains b = f.containsDigest key := by
  simp [contains, keyed]

theorem add_seen_cases (f : Bloom) (b : Block) :
    (b.filterKey = none ∧ (ResultFilter.seen f).add b = .seen f) ∨
      ∃ key, b.filterKey = some key ∧ (ResultFilter.seen f).add b = .seen (f.add key.bytes) := by
  cases keyed : b.filterKey with
  | none => exact .inl ⟨rfl, add_of_filterKey_eq_none keyed⟩
  | some key => exact .inr ⟨key, rfl, by simp [add, keyed]⟩

theorem decode_bytes {bloom : Bloom} (usable : bloom.Usable) :
    decode (ResultFilter.seen bloom).bytes = .ok (.seen bloom) := by
  have read := Bloom.decode_bytes usable.toSound
  rw [usable.mutated] at read
  rw [decode, bytes, read]
  rfl

end ResultFilter

namespace Handler

def fresh : Handler → Verdict
  | .hello => .more
  | .test | .name => .last

theorem filterResult_eq (h : Handler) (b : Block) (key : Digest) (f : ResultFilter)
    (extended : Bytes) :
    h.filterResult b key f extended =
      if h = .hello ∧ extended ≠ [] then (.irrelevant, f)
      else if f.contains b then (.duplicate, f)
      else (h.fresh, f.add b) := by
  cases h with
  | test => rfl
  | name => rfl
  | hello => cases extended <;> rfl

theorem filterResult_snd_of_refused {h : Handler} {b : Block} {key : Digest} {f : ResultFilter}
    {extended : Bytes}
    (refused : (h.filterResult b key f extended).1 = .duplicate ∨
      (h.filterResult b key f extended).1 = .irrelevant) :
    (h.filterResult b key f extended).2 = f := by
  rw [filterResult_eq] at refused ⊢
  split
  · rfl
  · next relevant =>
    split
    · rfl
    · next unknown =>
      rw [if_neg relevant, if_neg unknown] at refused
      cases h <;> simp [fresh] at refused

theorem filterResult_of_filterKey_eq_none (h : Handler) {b : Block} (key : Digest)
    (f : ResultFilter) (extended : Bytes) (keyless : b.filterKey = none) :
    (h.filterResult b key f extended).1 ≠ .duplicate ∧
      (h.filterResult b key f extended).2 = f := by
  rw [filterResult_eq, ResultFilter.contains_of_filterKey_eq_none keyless,
    ResultFilter.add_of_filterKey_eq_none keyless]
  split
  · simp
  · cases h <;> simp [fresh]

theorem filterResult_of_contains (h : Handler) {b : Block} (key : Digest) {f : ResultFilter}
    (extended : Bytes) (known : f.contains b) :
    h.filterResult b key f extended =
      (if h = .hello ∧ extended ≠ [] then .irrelevant else .duplicate, f) := by
  rw [filterResult_eq, if_pos known]
  split <;> rfl

/-- What can happen to the filter of a lookup: a block is judged with it, another filter is
merged into it if possible, or it is sent on. -/
inductive FilterStep where
  | judge (b : Block) (key : Digest) (extended : Bytes)
  | merge (other : ResultFilter)
  | transfer

def step (h : Handler) (f : ResultFilter) : FilterStep → Except FilterError ResultFilter
  | .judge b key extended => .ok (h.filterResult b key f extended).2
  | .merge other => .ok ((f.merge? other).getD f)
  | .transfer => ResultFilter.decode f.bytes

def run (h : Handler) (steps : List FilterStep) (f : ResultFilter) :
    Except FilterError ResultFilter :=
  steps.foldlM h.step f

section Filter
variable (h : Handler) {f : Bloom}

theorem within_filterResult (pos : 0 < f.size) (b : Block) (key : Digest) (extended : Bytes) :
    ∃ g : Bloom, (h.filterResult b key (.seen f) extended).2 = .seen g ∧ f.Within g := by
  rw [filterResult_eq]
  split
  · exact ⟨f, rfl, .refl f⟩
  split
  · exact ⟨f, rfl, .refl f⟩
  · obtain ⟨-, same⟩ | ⟨digest, -, added⟩ := ResultFilter.add_seen_cases f b
    · exact ⟨f, same, .refl f⟩
    · exact ⟨f.add digest.bytes, added, Bloom.within_add pos digest.bytes⟩

theorem within_merge (f : Bloom) (other : ResultFilter) :
    ∃ g : Bloom, ((ResultFilter.seen f).merge? other).getD (.seen f) = .seen g ∧ f.Within g := by
  cases other with
  | pass => exact ⟨f, rfl, .refl f⟩
  | seen other => exact ⟨_, Option.getD_map .., Bloom.within_getD_merge f other⟩

theorem step_seen (usable : f.Usable) (s : FilterStep) :
    ∃ g : Bloom, h.step (.seen f) s = .ok (.seen g) ∧ f.Within g := by
  cases s with
  | judge b key extended =>
    obtain ⟨g, after, within⟩ := within_filterResult h usable.pos b key extended
    exact ⟨g, congrArg Except.ok after, within⟩
  | merge other =>
    obtain ⟨g, after, within⟩ := within_merge f other
    exact ⟨g, congrArg Except.ok after, within⟩
  | transfer => exact ⟨f, ResultFilter.decode_bytes usable, .refl f⟩

/-- No run fails, and the filter knows at the end what it knew at the beginning. -/
theorem run_seen (usable : f.Usable) (steps : List FilterStep) :
    ∃ g : Bloom, h.run steps (.seen f) = .ok (.seen g) ∧ f.Within g := by
  induction steps generalizing f with
  | nil => exact ⟨f, rfl, .refl f⟩
  | cons s steps ih =>
    obtain ⟨g, first, within⟩ := step_seen h usable s
    obtain ⟨g', rest, later⟩ := ih (usable.of_within within)
    refine ⟨g', ?_, within.trans later⟩
    rw [run, List.foldlM_cons, first]
    exact rest

end Filter

/-- A block that was delivered is in the filter from then on. -/
theorem containsDigest_of_fresh {h : Handler} {f g : Bloom} {b : Block} {key digest : Digest}
    {extended : Bytes} {v : Verdict} (pos : 0 < f.size)
    (judged : h.filterResult b key (.seen f) extended = (v, .seen g))
    (delivered : v = .more ∨ v = .last) (keyed : b.filterKey = some digest) :
    g.contains digest.bytes := by
  rw [filterResult_eq] at judged
  split at judged
  · obtain ⟨rfl, -⟩ := Prod.mk.inj judged
    simp at delivered
  split at judged
  · obtain ⟨rfl, -⟩ := Prod.mk.inj judged
    simp at delivered
  · obtain ⟨-, after⟩ := Prod.mk.inj judged
    obtain ⟨keyless, -⟩ | ⟨digest', keyed', added⟩ := ResultFilter.add_seen_cases f b
    · rw [keyed] at keyless
      contradiction
    · obtain rfl : digest = digest' := Option.some.inj (keyed.symm.trans keyed')
      obtain rfl : f.add digest.bytes = g := ResultFilter.seen.inj (added.symm.trans after)
      exact Bloom.contains_add pos digest.bytes

/-- A block is delivered once. When it is judged at some point of a run, every later block
with the same filter key is a duplicate, whatever happens in between; an announcement asked
for with an extended query is irrelevant instead. A block that is not delivered leaves the
filter as it is, and so does one without a filter key, which is never a duplicate. -/
theorem delivered_once (h : Handler) {f : ResultFilter} (initial : f.Initial)
    (before between : List FilterStep) (b : Block) (key : Digest) (extended : Bytes) :
    ∃ f₁ v f₂ f₃, h.run before f = .ok f₁ ∧ h.filterResult b key f₁ extended = (v, f₂) ∧
      h.run between f₂ = .ok f₃ ∧
      (v = .duplicate ∨ v = .irrelevant → f₂ = f₁ ∧ f₂.bytes = f₁.bytes) ∧
      (b.filterKey = none → v ≠ .duplicate ∧ f₂ = f₁) ∧
      (v = .more ∨ v = .last → b.filterKey ≠ none →
        ∀ b' key' extended', b'.filterKey = b.filterKey →
          h.filterResult b' key' f₃ extended' =
            (if h = .hello ∧ extended' ≠ [] then .irrelevant else .duplicate, f₃)) := by
  obtain ⟨start, rfl, usable⟩ := initial.exists_usable
  obtain ⟨g₁, first, within⟩ := run_seen h usable before
  have usable₁ : g₁.Usable := usable.of_within within
  obtain ⟨g₂, judged, within₂⟩ := within_filterResult h usable₁.pos b key extended
  obtain ⟨g₃, rest, within₃⟩ := run_seen h (usable₁.of_within within₂) between
  refine ⟨.seen g₁, _, .seen g₂, .seen g₃, first, Prod.ext rfl judged, rest, ?kept, ?keyless,
    ?delivered⟩
  case kept =>
    intro refused
    have same : ResultFilter.seen g₂ = .seen g₁ :=
      judged.symm.trans (filterResult_snd_of_refused refused)
    exact ⟨same, congrArg ResultFilter.bytes same⟩
  case keyless =>
    intro keyless
    obtain ⟨notKnown, same⟩ := filterResult_of_filterKey_eq_none h key (.seen g₁) extended keyless
    exact ⟨notKnown, judged.symm.trans same⟩
  case delivered =>
    intro delivered keyed b' key' extended' same
    obtain ⟨digest, keyed⟩ := Option.ne_none_iff_exists'.1 keyed
    have known : g₂.contains digest.bytes :=
      containsDigest_of_fresh usable₁.pos (Prod.ext rfl judged) delivered keyed
    have knownLater : (ResultFilter.seen g₃).contains b' := by
      rw [ResultFilter.contains_of_filterKey_eq_some (same.trans keyed)]
      exact within₃.contains known
    exact filterResult_of_contains h key' extended' knownLater

theorem delivered_once_sent_on :
    let k := Digest.of []
    ∃ f₃, Handler.test.run [.judge (.test [1]) k [], .transfer, .merge (.sized 4 7),
        .judge (.test [2]) k [], .merge .pass] (.sized 4 7) = .ok f₃ ∧
      Handler.test.filterResult (.test [1]) k f₃ [0] = (.duplicate, f₃) := by
  intro k
  obtain ⟨f₁, v, f₂, f₃, before, judged, after, -, -, once⟩ := delivered_once .test (.sized 4 7) []
    [.transfer, .merge (.sized 4 7), .judge (.test [2]) k [], .merge .pass] (.test [1]) k []
  obtain rfl := Except.ok.inj before
  have last : (Handler.test.filterResult (.test [1]) k (.sized 4 7) []).1 = .last := by
    decide +kernel
  rw [judged] at last
  refine ⟨f₃, ?_, once (.inr last) (by simp [Block.filterKey]) (.test [1]) k [0] rfl⟩
  rw [run, List.foldlM_cons, step, judged]
  exact after

end Handler
end Overlay
