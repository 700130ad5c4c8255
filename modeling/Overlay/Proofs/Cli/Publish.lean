import Overlay.Proofs.Block.PublicRecords
import Overlay.Proofs.Cli.Lookup
import Overlay.Proofs.KeyText

/-! Text records through the command line: what was published is what a lookup shows, until it
expires, whatever is done in between to other keys. -/
namespace Overlay
variable {C : Curve} {OnCurve : C.Point → Prop}

namespace RecordSet
variable (value : String) (expiration : Timestamp)

theorem publicRecords_txt :
    publicRecords ⟨[.txt value expiration]⟩ = ⟨[.txt value expiration]⟩ := by
  rw [publicRecords, List.filter_singleton, Record.isPrivate_txt]
  rfl

theorem expiration_txt : RecordSet.expiration ⟨[.txt value expiration]⟩ = expiration := by
  have earliest := isEarliest_expiration ⟨[.txt value expiration]⟩
  rcases earliest.attained with ⟨none, -⟩ | attained
  · contradiction
  · exact List.mem_singleton.1 attained

theorem writtenSize_txt :
    writtenSize [.txt value expiration] = 20 + (Text.utf8 value).length := by
  simp only [writtenSize, List.map_cons, List.map_nil, List.sum_cons, List.sum_nil,
    Record.headerSize, Record.txt]
  omega

theorem length_encode_txt {value : String} {expiration : Timestamp} {plaintext : Bytes}
    (written : encode ⟨[.txt value expiration]⟩ = .ok plaintext) :
    32 + plaintext.length < UInt32.size := by
  have short : (Text.utf8 value).length ≤ 65535 :=
    (encode_eq_ok_iff.1 written).2.1 _ List.mem_cons_self
  rw [length_of_encode written, writtenSize_txt, UInt32.size]
  omega

end RecordSet

namespace Cli.Session
variable {m : Moment} {s : Session} {zoneFile label value : String} {ttl : UInt64}

/-- What is stored has been made of the text for the zone of the key file, and is not expired. -/
theorem publication_eq_ok {q : NameQuery} {b : NameBlock}
    (done : publication C m s zoneFile label value ttl = .ok (q, b)) :
    let expiration := m.now.add (.ofSeconds ttl.toNat)
    ∃ seed plaintext, seedAt s.files .zone zoneFile (.noZoneKey zoneFile) = .ok seed ∧
      (RecordSet.mk [.txt value expiration]).encode = .ok plaintext ∧
      b.Publishes C ⟨seed⟩ label expiration plaintext ∧ ¬ expiration.isExpired m.now ∧
      NameQuery.make C ((ZoneSecret.mk seed).zone C) label = .ok q := by
  intro expiration
  obtain ⟨seed, read, done⟩ := bind_eq_ok_iff.1 done
  obtain ⟨b', published, done⟩ := bind_eq_ok_iff.1 done
  obtain ⟨plaintext, written, published⟩ :=
    NameBlock.publishRecords_eq_ok (mapError_eq_ok_iff.1 published)
  rw [RecordSet.publicRecords_txt] at written published
  rw [RecordSet.expiration_txt] at published
  split at done
  · next storable =>
    obtain ⟨q', made, done⟩ := bind_eq_ok_iff.1 done
    cases done
    obtain ⟨unexpired, -⟩ := Handler.isSound_iff.1 storable
    refine ⟨seed, plaintext, read, written, published, ?_, mapError_eq_ok_iff.1 made⟩
    have expires : (Block.name b).expiration = expiration := published.expires
    rwa [expires] at unexpired
  · contradiction

theorem exists_publication_iff (lawful : C.Lawful OnCurve) :
    (∃ published, publication C m s zoneFile label value ttl = .ok published) ↔
      (∃ seed, seedAt s.files .zone zoneFile (.noZoneKey zoneFile) = .ok seed) ∧
        (Text.utf8 value).length ≤ 65535 ∧
        ¬ (m.now.add (.ofSeconds ttl.toNat)).isExpired m.now := by
  let expiration := m.now.add (.ofSeconds ttl.toNat)
  constructor
  · intro ⟨_, done⟩
    obtain ⟨seed, plaintext, read, written, -, unexpired, -⟩ := publication_eq_ok done
    obtain ⟨-, short, -⟩ := RecordSet.encode_eq_ok_iff.1 written
    exact ⟨⟨seed, read⟩, short _ List.mem_cons_self, unexpired⟩
  · intro ⟨⟨seed, read⟩, short, unexpired⟩
    let secret : ZoneSecret := ⟨seed⟩
    have writable : ∃ b, NameBlock.publishRecords C secret label ⟨[.txt value expiration]⟩ =
        .ok b := by
      rw [NameBlock.exists_publishRecords_iff lawful, RecordSet.publicRecords_txt,
        RecordSet.writtenSize_txt]
      have one : 1 < UInt32.size := by decide
      refine ⟨List.forall_mem_singleton.2 short, one, Aead.fits_of_lt ?_⟩
      simp only [UInt32.size]
      omega
    obtain ⟨b, done⟩ := writable
    obtain ⟨plaintext, -, published⟩ := NameBlock.publishRecords_eq_ok done
    rw [RecordSet.publicRecords_txt, RecordSet.expiration_txt] at published
    have expires : (Block.name b).expiration = expiration := published.expires
    have storable : Handler.name.storable C m.now (.name b) = true :=
      Handler.isSound_iff.2 ⟨by rwa [expires], published.verify lawful⟩
    refine ⟨(⟨secret.zone C, label, (secret.derive C label nameContext).zone, .none⟩, b), ?_⟩
    rw [publication, read, ok_bind]
    dsimp only
    rw [done]
    dsimp only [Except.mapError]
    rw [ok_bind, if_pos storable, NameQuery.make_zone lawful]
    rfl

/-- An entry is under a key of the store, which has been opened. -/
def Stores (s : Session) (key : Digest) (e : Entry) : Prop :=
  ∃ store, s.store = some store ∧ store.HasAt key e

/-- Nothing is put under a key while some commands are carried out. -/
def Spares (C : Curve) (key : Digest) : Session → List (Moment × Command) → Prop
  | _, [] => True
  | s, (m, c) :: turns =>
    (∀ q b text, plan C m s c = .deposit q b text → q.key ≠ key) ∧
      Spares C key (perform C m c s).2 turns

variable {key : Digest} {e : Entry}

theorem Stores.perform (stored : s.Stores key e) {c : Command}
    (spares : ∀ q b text, plan C m s c = .deposit q b text → q.key ≠ key) :
    (perform C m c s).2.Stores key e := by
  obtain ⟨store, held, has⟩ := stored
  refine ⟨(plan C m s c).storeAfter store, ?_, ?_⟩
  · rw [perform_eq]
    exact Plan.store_carryOut s _ held
  · cases planned : plan C m s c with
    | deposit q b text => exact has.put _ (spares q b text planned)
    | _ => exact has

theorem Stores.performAll (stored : s.Stores key e) {turns : List (Moment × Command)}
    (spares : Spares C key s turns) : (performAll C s turns).Stores key e := by
  induction turns generalizing s with
  | nil => exact stored
  | cons turn turns ih => exact ih (stored.perform spares.1) spares.2

theorem Plan.stores_of_deposit {q : Query} {b : Block} {text : String} {report : Report}
    (done : ((deposit q b text).carryOut.run.run s).1 = .ok report) :
    ((deposit q b text).carryOut.run.run s).2.Stores q.key (.ofBlock b) := by
  revert done
  rw [run_deposit]
  rcases openStore.run.run s with ⟨_ | store, s⟩
  · exact nofun
  · intro _
    exact ⟨_, rfl, store.hasAt_put q _⟩

/-- A lookup in a session shows some records, or that they have expired. -/
def Shows (C : Curve) (s : Session) (zone : ZoneKey) (label : String) (records : List Record)
    (expiration : Timestamp) : Prop :=
  ∀ m : Moment, (perform C m (.gnsLookup zone.text label) s).1 =
    if expiration.isExpired m.now then .ok (.warning s!"Records for '{label}' have expired")
    else .ok (.info ("\n".intercalate (records.map (formatRecord m.color))))

theorem shows_of_hasAt (lawful : C.Lawful OnCurve) {secret : ZoneSecret} {store : Store}
    {expiration : Timestamp} {plaintext : Bytes} {b : NameBlock} {records : RecordSet}
    (published : b.Publishes C secret label expiration plaintext)
    (written : records.encode = .ok plaintext) (fits : 32 + plaintext.length < UInt32.size)
    (opened : (openStore.run.run s).1 = .ok store)
    (has : store.HasAt b.routingKey (.ofBlock (.name b))) :
    Shows C s (secret.zone C) label records.records expiration := by
  intro m
  let q : NameQuery := ⟨secret.zone C, label, (secret.derive C label nameContext).zone, .none⟩
  have asked : lookupQuery C (secret.zone C).text label = .ok q :=
    lookupQuery_eq_ok_iff.2 ⟨_, _, ZoneKey.ofText_text _, ZoneSecret.zone_derive lawful .., rfl⟩
  have sized := published.sized fits
  have got : store.get m.now (.name q) =
      if expiration.isExpired m.now then .error .expired else .ok (.ofBlock (.name b)) := by
    have key : (Query.name q).key = b.routingKey := by
      rw [NameBlock.routingKey, published.signer]
      rfl
    have short : (Block.name b).bytes.length < UInt64.size := by
      rw [Block.bytes, NameBlock.bytes, List.length_append, ZoneSignature.length_bytes,
        NameBlock.length_signedData]
      simp only [UInt32.size, UInt64.size] at *
      omega
    have expires : (Entry.ofBlock (.name b)).expiration = expiration := published.expires
    have kind : (Entry.ofBlock (.name b)).kind = .nameRecord := rfl
    rw [← key] at has
    rw [has.get (Entry.fits_ofBlock short), Entry.answer_name, if_pos kind, expires]
  have listed : entryRecords C q (.ofBlock (.name b)) = .ok records := by
    refine (entryRecords_eq_ok_iff rfl).2 ⟨b, NameBlock.decode_bytes sized, ?_⟩
    have verified : q.verify C (.name b) = .ok () :=
      NameQuery.verify_name published.signer (published.verify lawful)
    exact NameQuery.records_name_eq_ok_iff.2 ⟨verified, plaintext, published.openData, written⟩
  by_cases expired : expiration.isExpired m.now
  · rw [if_pos expired] at got ⊢
    refine perform_gnsLookup_eq_ok_iff.2 ⟨q, store, asked, opened, ?_⟩
    rw [lookupReport, got]
  · rw [if_neg expired] at got ⊢
    refine perform_gnsLookup_eq_ok_iff.2 ⟨q, store, asked, opened, ?_⟩
    exact lookupReport_eq_info_iff.2 ⟨_, records, got, listed, rfl⟩

theorem perform_gnsPublish (C : Curve) (m : Moment) (zoneFile label value : String) (ttl : UInt64)
    (s : Session) :
    perform C m (.gnsPublish zoneFile label value ttl) s =
      match publication C m s zoneFile label value ttl with
      | .error fault => (.error fault, s)
      | .ok published => (publicationPlan label published).carryOut.run.run s := by
  rw [perform_eq, plan]
  cases publication C m s zoneFile label value ttl with
  | error fault => exact Plan.run_answer ..
  | ok published => rfl

theorem seedAt_eq_ok_iff {t : Files} {k : KeyFile} {path : String}
    {wrap : FileFault → CommandError} {seed : Octets 32} :
    seedAt t k path wrap = .ok seed ↔
      ∃ content, t.readText path = .ok content ∧ k.parse content = .ok seed := by
  rw [seedAt, bind_eq_ok_iff]
  simp only [mapError_eq_ok_iff]

/-- A publication that is reported has been made, and is in the store under its routing key. -/
theorem stored_of_gnsPublish {text : String}
    (done : (perform C m (.gnsPublish zoneFile label value ttl) s).1 = .ok (.success text)) :
    ∃ q b, publication C m s zoneFile label value ttl = .ok (q, b) ∧
      (perform C m (.gnsPublish zoneFile label value ttl) s).2.Stores q.key
        (.ofBlock (.name b)) := by
  rw [perform_gnsPublish] at done ⊢
  cases result : publication C m s zoneFile label value ttl with
  | error fault =>
    rw [result] at done
    contradiction
  | ok published =>
    rw [result] at done
    exact ⟨published.1, published.2, rfl, Plan.stores_of_deposit done⟩

/-- A publication that is reported leaves an entry in the store. Where the entry is found again, a
lookup of the label in the zone of the key file shows the text. -/
theorem shows_of_gnsPublish (lawful : C.Lawful OnCurve) {text : String}
    (done : (perform C m (.gnsPublish zoneFile label value ttl) s).1 = .ok (.success text)) :
    ∃ content seed derived e, s.files.readText zoneFile = .ok content ∧
      KeyFile.zone.parse content = .ok seed ∧
      ((ZoneSecret.mk seed).zone C).derive C label "gns" = .ok derived ∧
      (perform C m (.gnsPublish zoneFile label value ttl) s).2.Stores
        ⟨Sha512.hash derived.bytes⟩ e ∧
      ∀ (t : Session) store, (openStore.run.run t).1 = .ok store →
        store.HasAt ⟨Sha512.hash derived.bytes⟩ e →
        let expiration := m.now.add (.ofSeconds ttl.toNat)
        t.Shows C ((ZoneSecret.mk seed).zone C) label [.txt value expiration] expiration := by
  obtain ⟨q, b, done, stored⟩ := stored_of_gnsPublish done
  obtain ⟨seed, plaintext, read, written, published, -, made⟩ := publication_eq_ok done
  obtain ⟨content, found, parsed⟩ := seedAt_eq_ok_iff.1 read
  let secret : ZoneSecret := ⟨seed⟩
  have derived := secret.zone_derive lawful label nameContext
  have routed : b.routingKey = ⟨Sha512.hash (secret.derive C label nameContext).zone.bytes⟩ := by
    rw [NameBlock.routingKey, published.signer]
    rfl
  rw [published.key_eq lawful made, routed] at stored
  refine ⟨content, seed, _, _, found, parsed, derived, stored, fun t store opened has => ?_⟩
  rw [← routed] at has
  exact shows_of_hasAt lawful published written (RecordSet.length_encode_txt written) opened has

theorem openStore_memory (unused : s.store = none) (backend : s.config.backend = .memory)
    (made : (s.files.makeDirectory s.config.dataDir).1 = .ok ()) :
    (openStore.run.run s).1 = .ok (.memory .empty) := by
  rw [run_openStore_of_none unused, discover, backend]
  revert made
  rcases s.files.makeDirectory s.config.dataDir with ⟨_ | _, t⟩
  · intro made
    cases made
  · intro _
    rfl

theorem gnsPublish_succeeds (lawful : C.Lawful OnCurve) {store : Store} {seed : Octets 32}
    (read : seedAt s.files .zone zoneFile (.noZoneKey zoneFile) = .ok seed)
    (short : (Text.utf8 value).length ≤ 65535)
    (unexpired : ¬ (m.now.add (.ofSeconds ttl.toNat)).isExpired m.now)
    (opened : (openStore.run.run s).1 = .ok store) :
    ∃ text, (perform C m (.gnsPublish zoneFile label value ttl) s).1 = .ok (.success text) := by
  have publishable : ∃ published, publication C m s zoneFile label value ttl = .ok published :=
    (exists_publication_iff lawful).2 ⟨⟨seed, read⟩, short, unexpired⟩
  obtain ⟨published, done⟩ := publishable
  rw [perform_gnsPublish, done]
  dsimp only
  rw [publicationPlan, Plan.run_deposit]
  revert opened
  rcases openStore.run.run s with ⟨_ | store, s⟩
  · exact nofun
  · intro _
    exact ⟨_, rfl⟩

/-- A working directory with the key file of a zone in it. -/
def zoneFiles : Files :=
  (Files.bare ["home"]).set ["home", "zone.json"]
    (.file (Text.utf8 (KeyFile.zone.write "" (.zero 32))))

theorem seedAt_zoneFiles (wrap : FileFault → CommandError) :
    seedAt zoneFiles .zone "zone.json" wrap = .ok (.zero 32) :=
  seedAt_eq_ok_iff.2 ⟨KeyFile.zone.write "" (.zero 32), by decide +kernel, by decide +kernel⟩

theorem gnsPublish_zoneFiles {config : Config} {store : Store}
    (opened : (openStore.run.run (start config zoneFiles)).1 = .ok store) :
    ∃ text, (perform ed25519 ⟨.ofMicros 1000000, .zero 32, false⟩
      (.gnsPublish "zone.json" "www" "hello" 60) (start config zoneFiles)).1 =
        .ok (.success text) :=
  gnsPublish_succeeds ed25519_lawful (seedAt_zoneFiles _) (by decide) (by decide) opened

/-- What a successful publication leaves in the store is found from then on under the text of the
zone's key and the label, as long as nothing else is put under its routing key: the text record
until it expires, and the news that it has expired after that. A text that is too long for a
record or would be expired at once is refused, and nothing changes. -/
theorem gnsPublish_then_lookup (lawful : C.Lawful OnCurve) (m : Moment) (s : Session)
    (zoneFile label value : String) (ttl : UInt64) :
    let expiration := m.now.add (.ofSeconds ttl.toNat)
    let outcome := perform C m (.gnsPublish zoneFile label value ttl) s
    (∀ text, outcome.1 = .ok (.success text) →
      ∃ content seed derived, s.files.readText zoneFile = .ok content ∧
        KeyFile.zone.parse content = .ok seed ∧
        ((ZoneSecret.mk seed).zone C).derive C label "gns" = .ok derived ∧
        ∀ turns, Spares C ⟨Sha512.hash derived.bytes⟩ outcome.2 turns → ∀ later : Moment,
          (perform C later (.gnsLookup ((ZoneSecret.mk seed).zone C).text label)
            (performAll C outcome.2 turns)).1 =
              if expiration.isExpired later.now then
                .ok (.warning s!"Records for '{label}' have expired")
              else .ok (.info (formatRecord later.color (.txt value expiration)))) ∧
    (65535 < (Text.utf8 value).length ∨ expiration.isExpired m.now →
      (∃ fault, outcome.1 = .error fault) ∧ outcome.2 = s) := by
  intro expiration outcome
  constructor
  · intro text done
    obtain ⟨content, seed, derived, e, found, parsed, made, stored, shows⟩ :=
      shows_of_gnsPublish lawful done
    refine ⟨content, seed, derived, found, parsed, made, fun turns spares later => ?_⟩
    obtain ⟨store, held, has⟩ := stored.performAll spares
    have opened : (openStore.run.run (performAll C outcome.2 turns)).1 = .ok store := by
      rw [run_openStore_of_some held]
    exact shows _ store opened has later
  · intro refused
    have impossible : ¬ ∃ published, publication C m s zoneFile label value ttl = .ok published := by
      rw [exists_publication_iff lawful]
      intro publishable
      obtain ⟨-, short, unexpired⟩ := publishable
      exact refused.elim (Nat.not_lt.2 short) unexpired
    cases result : publication C m s zoneFile label value ttl with
    | error fault =>
      have performed : outcome = (.error fault, s) := by
        rw [show outcome = _ from perform_gnsPublish .., result]
      rw [performed]
      exact ⟨⟨fault, rfl⟩, rfl⟩
    | ok published => exact absurd ⟨published, result⟩ impossible

/-- A text that is published for a minute is found after the store was listed, and has expired
later on. One that would be expired at once is refused. -/
theorem gnsPublish_then_lookup_minute :
    let files := (Files.bare ["home"]).set ["home", "zone.json"]
      (.file (Text.utf8 (KeyFile.zone.write "" (.zero 32))))
    let s := start { Config.standard with backend := .memory } files
    let m : Moment := ⟨.ofMicros 1000000, .zero 32, false⟩
    let next : Moment := ⟨.ofMicros 2000000, .zero 32, false⟩
    let late : Moment := ⟨.ofMicros 61000000, .zero 32, false⟩
    let zone := (ZoneSecret.mk (.zero 32)).zone ed25519
    ed25519.Lawful Ed25519.Point.OnCurve ∧
      ∃ text t, perform ed25519 m (.gnsPublish "zone.json" "www" "hello" 60) s =
          (.ok (.success text), t) ∧
        (perform ed25519 next (.gnsLookup zone.text "www")
          (performAll ed25519 t [(next, .storeList)])).1 =
            .ok (.info (formatRecord false (.txt "hello" (.ofMicros 61000000)))) ∧
        (perform ed25519 late (.gnsLookup zone.text "www")
          (performAll ed25519 t [(next, .storeList)])).1 =
            .ok (.warning "Records for 'www' have expired") ∧
        (perform ed25519 m (.gnsPublish "zone.json" "www" "hello" 0) s).2 = s := by
  intro files s m next late zone
  have opened : (openStore.run.run s).1 = .ok (.memory .empty) := by
    have made : (files.makeDirectory "data").1 = .ok () := by decide +kernel
    exact openStore_memory rfl rfl made
  have done : ∃ text, (perform ed25519 m (.gnsPublish "zone.json" "www" "hello" 60) s).1 =
      .ok (.success text) := gnsPublish_zoneFiles opened
  obtain ⟨found, -⟩ := gnsPublish_then_lookup ed25519_lawful m s "zone.json" "www" "hello" 60
  obtain ⟨-, refused⟩ := gnsPublish_then_lookup ed25519_lawful m s "zone.json" "www" "hello" 0
  obtain ⟨text, done⟩ := done
  obtain ⟨content, seed, derived, read, parsed, -, answers⟩ := found text done
  -- The seed that was found is that of the file, so that the zone is the one that is looked up.
  have same : seedAt files .zone "zone.json" .file = .ok seed :=
    seedAt_eq_ok_iff.2 ⟨content, read, parsed⟩
  obtain rfl := Except.ok.inj ((seedAt_zoneFiles _).symm.trans same)
  have expires : m.now.add (.ofSeconds (60 : UInt64).toNat) = .ofMicros 61000000 := by decide
  rw [expires] at answers
  rcases performed : perform ed25519 m (.gnsPublish "zone.json" "www" "hello" 60) s with
    ⟨outcome, t⟩
  rw [performed] at done answers
  obtain rfl : outcome = .ok (.success text) := done
  have spares : Spares ed25519 ⟨Sha512.hash derived.bytes⟩ t [(next, .storeList)] :=
    ⟨fun _ _ _ planned => Plan.noConfusion planned, trivial⟩
  have shown := answers _ spares next
  have expired := answers _ spares late
  rw [if_neg (by decide)] at shown
  rw [if_pos (by decide)] at expired
  exact ⟨ed25519_lawful, text, t, rfl, shown, expired, (refused (.inr (by decide))).2⟩

end Cli.Session
end Overlay
