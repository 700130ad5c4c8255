import Overlay.Proofs.Cli.Publish
import Overlay.Proofs.Store.Directory

/-! What commands store is sound: read with the registry, every entry is a block of its kind
that belongs under its key and verifies. One lemma for each effect of a command says that it
leaves the session sound. -/
namespace Overlay
variable {C : Curve} {OnCurve : C.Point → Prop}

/-- An entry is under a routing key for a block that a registry reads it as, has a handler for,
derives the key of, and that verifies. -/
structure Entry.BelongsUnder (C : Curve) (r : Registry) (key : Digest) (e : Entry) (b : Block) :
    Prop where
  standsFor : e.StandsFor r b
  kind : b.kind = e.kind
  handled : ∃ h, r.find? e.kind = some h ∧ h.deriveKey b = some key ∧ h.validKey b key
  verified : b.verify C = .ok true

namespace Entry.BelongsUnder

theorem hello {h : Hello} (formed : ∀ a ∈ h.addresses, a.WellFormed)
    (verified : h.verify C = .ok true) :
    (ofBlock (.hello h)).BelongsUnder C .standard h.routingKey (.hello h) where
  standsFor := ⟨map_eq_ok_iff.2 ⟨h, Hello.decode_bytes formed, rfl⟩, rfl,
    filterDigest_ofBlock (.hello h)⟩
  kind := rfl
  handled := ⟨.hello, rfl, rfl, beq_self_eq_true _⟩
  verified := verified

theorem name {b : NameBlock} (fits : NameBlock.signedHeaderSize + b.data.length < UInt32.size)
    (verified : b.verify C = .ok true) :
    (ofBlock (.name b)).BelongsUnder C .standard b.routingKey (.name b) where
  standsFor := ⟨map_eq_ok_iff.2 ⟨b, NameBlock.decode_bytes fits, rfl⟩, rfl,
    filterDigest_ofBlock (.name b)⟩
  kind := rfl
  handled := ⟨.name, rfl, rfl, beq_self_eq_true _⟩
  verified := verified

end Entry.BelongsUnder

namespace Cli.Session
variable {m : Moment} {s : Session}

theorem wellFormed_of_parseUris {uris : List String} {addresses : List Address}
    (read : parseUris uris = .ok addresses) : ∀ a ∈ addresses, a.WellFormed := by
  have inverse (uri : String) (a : Address) :
      (Address.parse uri).mapError (CommandError.badAddress uri) = .ok a ↔
        uri = a.uri ∧ a.WellFormed :=
    mapError_eq_ok_iff.trans Address.parse_eq_ok_iff
  rw [parseUris] at read
  exact ((mapM_eq_ok_iff_of_inverse inverse).1 read).2

theorem announcement_eq_some {uris : List String} {ttl : Option UInt64} {h : Hello}
    (done : announcement C m s uris ttl = .ok (some h)) :
    (∀ a ∈ h.addresses, a.WellFormed) ∧ h.verify C = .ok true := by
  obtain ⟨seed, -, done⟩ := bind_eq_ok_iff.1 done
  obtain ⟨addresses, read, done⟩ := bind_eq_ok_iff.1 done
  split at done
  · cases Except.ok.inj done
  · obtain ⟨signed, sign, done⟩ := bind_eq_ok_iff.1 done
    split at done
    · next storable =>
      cases done
      have sign := mapError_eq_ok_iff.1 sign
      rw [Hello.sign] at sign
      split at sign
      · obtain rfl := Except.ok.inj sign
        exact ⟨wellFormed_of_parseUris read, (Handler.isSound_iff.1 storable).2⟩
      · contradiction
    · contradiction

/-- A plan puts nothing into the store that does not belong there. -/
def Plan.Sound (C : Curve) : Plan → Prop
  | .deposit q b _ => (Entry.ofBlock b).BelongsUnder C .standard q.key b
  | _ => True

theorem Plan.sound_ofExcept {α : Type} {plan : α → Plan} {result : Except CommandError α}
    (sound : ∀ a, result = .ok a → (plan a).Sound C) : (ofExcept plan result).Sound C := by
  cases result with
  | error fault => trivial
  | ok a => exact sound a rfl

theorem sound_plan (lawful : C.Lawful OnCurve) (m : Moment) (s : Session) (c : Command) :
    (plan C m s c).Sound C := by
  cases c with
  | keygen force =>
    rw [plan, keygenPlan]
    split <;> trivial
  | hello uris ttl =>
    refine Plan.sound_ofExcept fun found done => ?_
    cases found with
    | none => trivial
    | some h =>
      obtain ⟨formed, verified⟩ := announcement_eq_some done
      exact .hello formed verified
  | parseHello url strict => trivial
  | zoneKeygen out =>
    rw [plan, zoneKeygenPlan]
    split <;> trivial
  | gnsPublish zoneFile label value ttl =>
    refine Plan.sound_ofExcept fun published done => ?_
    obtain ⟨q, b⟩ := published
    obtain ⟨seed, plaintext, -, written, published, -, made⟩ := publication_eq_ok done
    have sized := published.sized (RecordSet.length_encode_txt written)
    have belongs := Entry.BelongsUnder.name sized (published.verify lawful)
    rwa [← published.key_eq lawful made] at belongs
  | gnsLookup zoneText label => exact Plan.sound_ofExcept fun _ _ => trivial
  | storeList => trivial

/-- Everything in the store of a session belongs there. A store on disk that has not been used
yet has nothing in it. -/
structure Sound (C : Curve) (s : Session) : Prop where
  stored : ∀ store, s.store = some store →
    store.All fun key e => ∃ b, e.BelongsUnder C .standard key b
  vacant : s.store = none → s.config.backend = .disk →
    StoreDirectory.IsVacant s.config.storePath s.files

theorem vacant_writeText {store : String} {t : Files}
    (vacant : StoreDirectory.IsVacant store t) (path content : String) :
    StoreDirectory.IsVacant store (writeText t path content).2 := by
  -- The path may well be that of the log, but a log begins with bytes that no text has in it.
  have silent : Log.SetsNothing (Text.utf8 content) :=
    Log.setsNothing_of_not_mem (Text.ones_not_mem_utf8 content)
  have made : StoreDirectory.IsVacant store (t.makeParent path).2 :=
    vacant.of_bringsNothing (.makeParent t path)
  rcases writeText_cases t path content with ⟨fault, failed⟩ | ⟨t', written, done⟩
  · rwa [failed]
  · rw [done]
    exact made.write silent written

/-- The store that is found where there is none is empty. If it cannot be opened, there is still
none. -/
theorem discover_of_vacant {config : Config} {t : Files}
    (vacant : config.backend = .disk → StoreDirectory.IsVacant config.storePath t) :
    (config.backend = .disk → StoreDirectory.IsVacant config.storePath (discover config t).2) ∧
      ∀ store growth, (discover config t).1 = .ok (store, growth) →
        store = .memory .empty ∨ store = .disk .empty := by
  have made (disk : config.backend = .disk) :
      StoreDirectory.IsVacant config.storePath (t.makeDirectory config.dataDir).2 :=
    (vacant disk).of_bringsNothing (.makeDirectory t config.dataDir)
  rcases discover_cases config t with ⟨fault, done⟩ | ⟨-, done⟩ | ⟨disk, result, files, run, done⟩
  · rw [done]
    exact ⟨made, nofun⟩
  · rw [done]
    refine ⟨made, fun store growth found => ?_⟩
    cases found
    exact .inl rfl
  · have loaded := StoreDirectory.keeps_load _ (made disk)
    rw [run] at loaded
    rw [done]
    refine ⟨fun _ => loaded.1, fun store growth found => ?_⟩
    cases result with
    | error fault => cases found
    | ok result =>
      cases found
      exact .inr (congrArg Store.disk (loaded.2 _ rfl))

namespace Sound

theorem openStore (sound : s.Sound C) : (openStore.run.run s).2.Sound C := by
  cases held : s.store with
  | some store => rwa [run_openStore_of_some held]
  | none =>
    have found := discover_of_vacant (sound.vacant held)
    rw [run_openStore_of_none held]
    revert found
    rcases discover s.config s.files with ⟨_ | ⟨store, growth⟩, files⟩
    · exact fun found => ⟨sound.stored, fun _ => found.1⟩
    · intro found
      refine ⟨fun other held => ?_, nofun⟩
      cases held
      rcases found.2 store growth rfl with rfl | rfl
      · exact Store.all_memory_empty
      · exact Store.all_disk_empty

theorem carryOut {plan : Plan} (sound : s.Sound C) (planned : plan.Sound C) :
    (plan.carryOut.run.run s).2.Sound C := by
  cases plan with
  | answer outcome => rwa [Plan.run_answer]
  | write path content text =>
    rw [Plan.run_write]
    exact ⟨sound.stored, fun unused disk => vacant_writeText (sound.vacant unused disk) _ _⟩
  | look report =>
    rw [Plan.run_look_snd]
    exact sound.openStore
  | deposit q b text =>
    have after := sound.openStore
    have opened := @store_of_openStore s
    rw [Plan.run_deposit]
    revert after opened
    rcases Session.openStore.run.run s with ⟨_ | store, t⟩
    · exact fun after _ => after
    · intro after opened
      refine ⟨fun other held => ?_, nofun⟩
      cases held
      exact (after.stored store (opened rfl)).put ⟨b, planned⟩

end Sound

theorem sound_performAll (lawful : C.Lawful OnCurve) (turns : List (Moment × Command))
    (sound : s.Sound C) : (performAll C s turns).Sound C := by
  -- Any of the commands can be the one that finds the store, so what is carried along speaks of the
  -- files too, until there is one.
  refine performAll_keeps (fun m c s sound => ?_) turns sound
  rw [perform_eq]
  exact sound.carryOut (sound_plan lawful m s c)

/-- In a session that starts with an empty store, whatever the commands and whatever they find,
everything that is ever in the store belongs there: the registry reads each entry as a block of
the entry's kind, with the entry's expiration and filter key, whose handler puts it under the key
that the entry is under, and which verifies. -/
theorem performAll_entries_belong (lawful : C.Lawful OnCurve) (config : Config) (files : Files)
    (empty : config.backend = .disk → StoreDirectory.IsVacant config.storePath files)
    (turns : List (Moment × Command)) (store : Store)
    (held : (performAll C (start config files) turns).store = some store) :
    store.All fun key e => ∃ b, e.BelongsUnder C .standard key b := by
  have sound : (start config files).Sound C := ⟨nofun, fun _ => empty⟩
  exact (sound_performAll lawful turns sound).stored store held

/-- A text that is published for a minute in a new store on disk. -/
theorem performAll_entries_belong_minute :
    let files := (Files.bare ["home"]).set ["home", "zone.json"]
      (.file (Text.utf8 (KeyFile.zone.write "" (.zero 32))))
    let m : Moment := ⟨.ofMicros 1000000, .zero 32, false⟩
    ed25519.Lawful Ed25519.Point.OnCurve ∧
      StoreDirectory.IsVacant Config.standard.storePath files ∧
      ∃ store, (performAll ed25519 (start .standard files)
          [(m, .gnsPublish "zone.json" "www" "hello" 60)]).store = some store ∧
        (∃ key e, store.HasAt key e) ∧
        store.All fun key e => ∃ b, e.BelongsUnder ed25519 .standard key b := by
  intro files m
  have opened : (openStore.run.run (start .standard files)).1 = .ok (.disk .empty) := by
    decide +kernel
  have vacant : StoreDirectory.IsVacant Config.standard.storePath files :=
    StoreDirectory.LogIs.of_absent (by decide +kernel)
  obtain ⟨text, done⟩ := gnsPublish_zoneFiles opened
  obtain ⟨q, b, -, store, held, has⟩ := stored_of_gnsPublish done
  rw [← performAll_singleton] at held
  exact ⟨ed25519_lawful, vacant, store, held, ⟨_, _, has⟩,
    performAll_entries_belong ed25519_lawful .standard files (fun _ => vacant) _ store held⟩

end Cli.Session
end Overlay
