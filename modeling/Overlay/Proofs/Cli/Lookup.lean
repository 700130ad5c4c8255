import Overlay.Proofs.Cli.Opening
import Overlay.Proofs.Query.Verification
import Overlay.Proofs.Store.Residents

/-! Lookups of records through the command line. The store is not trusted: what is shown is
what the owner of the zone has signed, or nothing is. -/
namespace Overlay.Cli.Session
variable {C : Curve} {m : Moment} {zoneText label : String} {q : NameQuery}

theorem lookupQuery_eq_ok_iff :
    lookupQuery C zoneText label = .ok q ↔
      ∃ zone derived, ZoneKey.ofText zoneText = .ok zone ∧
        zone.derive C label nameContext = .ok derived ∧ q = ⟨zone, label, derived, .none⟩ := by
  rw [lookupQuery, bind_eq_ok_iff]
  simp only [mapError_eq_ok_iff, NameQuery.make_eq_ok_iff]
  constructor
  · intro asked
    obtain ⟨zone, read, derived, found⟩ := asked
    exact ⟨zone, derived, read, found⟩
  · intro blinded
    obtain ⟨zone, derived, read, found⟩ := blinded
    exact ⟨zone, read, derived, found⟩

theorem entryRecords_eq_ok_iff {e : Entry} {records : RecordSet} (kind : e.kind = .nameRecord) :
    entryRecords C q e = .ok records ↔
      ∃ b, NameBlock.decode e.data = .ok b ∧ q.records C (.name b) = .ok records := by
  have parse : Registry.standard.parseBlock e.kind e.data =
      (NameBlock.decode e.data).map .name := by
    rw [kind]
    rfl
  rw [entryRecords, parse]
  constructor
  · intro listed
    obtain ⟨parsed, read, listed⟩ := bind_eq_ok_iff.1 listed
    obtain ⟨b, decoded, rfl⟩ := map_eq_ok_iff.1 (mapError_eq_ok_iff.1 read)
    obtain ⟨plaintext, decrypted, listed⟩ := bind_eq_ok_iff.1 listed
    obtain ⟨verified, opened⟩ :=
      Verification.decrypt_start_eq_ok_iff.1 (mapError_eq_ok_iff.1 decrypted)
    have written := RecordSet.decode_eq_ok_iff_encode.1 (mapError_eq_ok_iff.1 listed)
    exact ⟨b, decoded, NameQuery.records_name_eq_ok_iff.2 ⟨verified, plaintext, opened, written⟩⟩
  · intro recorded
    obtain ⟨b, decoded, recorded⟩ := recorded
    obtain ⟨verified, plaintext, opened, written⟩ :=
      NameQuery.records_name_eq_ok_iff.1 recorded
    have decrypted := Verification.decrypt_start_eq_ok_iff.2 ⟨verified, opened⟩
    have listed := RecordSet.decode_eq_ok_iff_encode.2 written
    rw [decoded]
    refine bind_eq_ok_iff.2 ⟨.name b, rfl, ?_⟩
    exact bind_eq_ok_iff.2 ⟨plaintext, mapError_eq_ok_iff.2 decrypted, mapError_eq_ok_iff.2 listed⟩

variable {store : Store}

theorem lookupReport_eq_info_iff {text : String} :
    lookupReport C m label q store = .ok (.info text) ↔
      ∃ e records, store.get m.now (.name q) = .ok e ∧ entryRecords C q e = .ok records ∧
        text = "\n".intercalate (records.records.map (formatRecord m.color)) := by
  rw [lookupReport]
  rcases store.get m.now (.name q) with fault | e
  · cases fault <;> simp
  · dsimp only
    rw [map_eq_ok_iff]
    simp [eq_comm]

theorem lookupReport_cases {report : Report}
    (found : lookupReport C m label q store = .ok report) :
    (∃ text, report = .info text) ∨ ∃ text, report = .warning text := by
  rw [lookupReport] at found
  split at found
  · exact .inr ⟨_, (Except.ok.inj found).symm⟩
  · exact .inr ⟨_, (Except.ok.inj found).symm⟩
  · contradiction
  · obtain ⟨records, -, rfl⟩ := map_eq_ok_iff.1 found
    exact .inl ⟨_, rfl⟩

theorem perform_gnsLookup (s : Session) :
    perform C m (.gnsLookup zoneText label) s =
      match lookupQuery C zoneText label with
      | .error fault => (.error fault, s)
      | .ok q =>
        match openStore.run.run s with
        | (.ok store, s) => (lookupReport C m label q store, s)
        | (.error fault, s) => (.error fault, s) := by
  rw [perform_eq, plan]
  cases lookupQuery C zoneText label with
  | error fault => exact Plan.run_answer ..
  | ok q => exact Plan.run_look ..

theorem perform_gnsLookup_eq_ok_iff {s : Session} {report : Report} :
    (perform C m (.gnsLookup zoneText label) s).1 = .ok report ↔
      ∃ q store, lookupQuery C zoneText label = .ok q ∧ (openStore.run.run s).1 = .ok store ∧
        lookupReport C m label q store = .ok report := by
  rw [perform_gnsLookup]
  cases lookupQuery C zoneText label with
  | error fault => simp
  | ok q => rcases openStore.run.run s with ⟨_ | store, s⟩ <;> simp

variable (C m zoneText label)

theorem perform_gnsLookup_snd (s : Session) :
    (perform C m (.gnsLookup zoneText label) s).2 = s ∨
      (perform C m (.gnsLookup zoneText label) s).2 = (openStore.run.run s).2 := by
  rw [perform_gnsLookup]
  cases lookupQuery C zoneText label with
  | error fault => exact .inl rfl
  | ok q => rcases openStore.run.run s with ⟨_ | store, s⟩ <;> exact .inr rfl

/-- A lookup shows records exactly if there is an unexpired entry for names under the digest of
the derived key, with a block that has this key in it, a signature by it, and data that opens for
zone, label and expiration to what these records are written as. They are the records that the
block has as the answer to the query. In all other cases there is a warning or an error. What is
stored stays as it is. The session is left as it was, but for the store that is opened if it was
not yet. -/
theorem gnsLookup_authentic (s : Session) :
    let outcome := perform C m (.gnsLookup zoneText label) s
    (∀ text, outcome.1 = .ok (.info text) ↔
      ∃ zone derived store e b plaintext records,
        ZoneKey.ofText zoneText = .ok zone ∧ zone.derive C label "gns" = .ok derived ∧
        (openStore.run.run s).1 = .ok store ∧
        store.under? ⟨Sha512.hash derived.bytes⟩ = some (.ok e) ∧
        e.kind = .nameRecord ∧ ¬ e.expiration.isExpired m.now ∧
        NameBlock.decode e.data = .ok b ∧ b.signer.zone = derived ∧
        derived.verify C (purposeHeader (16 + b.data.length) Purpose.gnsRecords.code ++
          b.expiration.bytes ++ b.data) b.signer.signature = .ok true ∧
        zone.openData label b.expiration b.data = .ok plaintext ∧
        records.encode = .ok plaintext ∧
        text = "\n".intercalate (records.records.map (formatRecord m.color)) ∧
        ∃ q, NameQuery.make C zone label = .ok q ∧ q.records C (.name b) = .ok records) ∧
    (∀ report, outcome.1 = .ok report →
      (∃ text, report = .info text) ∨ ∃ text, report = .warning text) ∧
    (outcome.2 = s ∨ outcome.2 = (openStore.run.run s).2) ∧
    (s.files.Named → outcome.2.contents = s.contents) ∧
    ∀ store, s.store = some store →
      openStore.run.run s = (.ok store, s) ∧ outcome.2 = s := by
  intro outcome
  have after := perform_gnsLookup_snd C m zoneText label s
  refine ⟨fun text => ⟨?shown, ?found⟩, ?reports, after, ?stored, ?kept⟩
  case shown =>
    intro shown
    obtain ⟨q, store, asked, opened, said⟩ := perform_gnsLookup_eq_ok_iff.1 shown
    obtain ⟨zone, derived, read, blinded, rfl⟩ := lookupQuery_eq_ok_iff.1 asked
    obtain ⟨e, records, got, listed, rfl⟩ := lookupReport_eq_info_iff.1 said
    obtain ⟨held, kind, unexpired⟩ := Store.get_name_eq_ok_iff.1 got
    obtain ⟨b, decoded, recorded⟩ := (entryRecords_eq_ok_iff kind).1 listed
    obtain ⟨verified, plaintext, unsealed, written⟩ :=
      NameQuery.records_name_eq_ok_iff.1 recorded
    obtain ⟨signer, signed⟩ := NameQuery.verify_name_iff.1 verified
    exact ⟨zone, derived, store, e, b, plaintext, records, read, blinded, opened, held, kind,
      unexpired, decoded, signer, signed, unsealed, written, rfl,
      _, NameQuery.make_eq_ok_iff.2 ⟨derived, blinded, rfl⟩, recorded⟩
  case found =>
    intro ⟨zone, derived, store, e, b, _, records, read, blinded, opened, held, kind,
      unexpired, decoded, _, _, _, _, listed, q, made, recorded⟩
    -- The query has a derived key of its own, which is the same.
    obtain ⟨derived', blinded', rfl⟩ := NameQuery.make_eq_ok_iff.1 made
    obtain rfl := Except.ok.inj (blinded.symm.trans blinded')
    have asked := lookupQuery_eq_ok_iff.2 ⟨zone, derived, read, blinded, rfl⟩
    have got : store.get m.now (.name ⟨zone, label, derived, .none⟩) = .ok e :=
      Store.get_name_eq_ok_iff.2 ⟨held, kind, unexpired⟩
    have found := (entryRecords_eq_ok_iff kind).2 ⟨b, decoded, recorded⟩
    refine perform_gnsLookup_eq_ok_iff.2 ⟨_, store, asked, opened, ?_⟩
    exact lookupReport_eq_info_iff.2 ⟨e, records, got, found, listed⟩
  case reports =>
    intro report done
    obtain ⟨q, store, -, -, said⟩ := perform_gnsLookup_eq_ok_iff.1 done
    exact lookupReport_cases said
  case stored =>
    intro named
    rcases after with same | same
    · rw [same]
    · rw [same]
      exact (openStore_frame named).2.1
  case kept =>
    intro store held
    have opened := run_openStore_of_some held
    refine ⟨opened, ?_⟩
    rcases after with same | same
    · exact same
    · rw [opened] at same
      exact same

end Overlay.Cli.Session
