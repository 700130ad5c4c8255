import Overlay.Proofs.Block.HelloUrlGrammar

/-! The URL of an announcement is read back as the announcement, apart from what its
whole seconds do not say of the expiration. -/
namespace Overlay.Hello

theorem toList_addressParameter (a : Address) :
    (addressParameter a).toList =
      a.scheme.toList ++ '=' :: (Text.Percent.escape a.authority).toList := by
  simp [addressParameter]

theorem itemSpells_addressParameter {a : Address} (scheme : Address.SchemeText a.scheme) :
    ItemSpells (addressParameter a).toList a := by
  have escapes := Text.Percent.unescape_eq_ok_iff.1 (Text.Percent.unescape_escape a.authority)
  exact ⟨scheme, Text.Percent.escape a.authority, toList_addressParameter a, escapes⟩

theorem ampersand_not_mem_addressParameter {a : Address} (scheme : Address.SchemeText a.scheme) :
    '&' ∉ (addressParameter a).toList := by
  rw [toList_addressParameter, List.mem_append, List.mem_cons]
  rintro (inScheme | equals | inAuthority)
  · exact Address.not_mem_scheme scheme (by decide) inScheme
  · contradiction
  · exact ((Text.Percent.escaped_escape a.authority).free '&' inAuthority).2 (by decide)

theorem querySpells_intercalate {addresses : List Address} (nonempty : addresses ≠ [])
    (schemes : ∀ a ∈ addresses, Address.SchemeText a.scheme) :
    QuerySpells ('?' :: ("&".intercalate (addresses.map addressParameter)).toList) addresses := by
  have query : ("&".intercalate (addresses.map addressParameter)).toList =
      ['&'].intercalate (addresses.map fun a => (addressParameter a).toList) := by
    simp [String.toList_intercalate, Function.comp_def]
  have free : ∀ item ∈ addresses.map fun a => (addressParameter a).toList, '&' ∉ item := by
    intro item member
    obtain ⟨a, inList, rfl⟩ := List.mem_map.1 member
    exact ampersand_not_mem_addressParameter (schemes a inList)
  have each : List.Forall₂ ItemSpells (addresses.map fun a => (addressParameter a).toList)
      addresses := by
    rw [List.forall₂_map_left_iff, List.forall₂_same]
    exact fun a member => itemSpells_addressParameter (schemes a member)
  rw [query]
  exact .items (by simpa using nonempty) free each

/-- What the URL says is the announcement with the time that its whole seconds say. -/
theorem urlSpells_url {h : Hello} (schemes : ∀ a ∈ h.addresses, Address.SchemeText a.scheme) :
    UrlSpells h.url { h with expiration := h.expiration.throughSeconds } := by
  let path := Text.Crockford.encodeChars h.peer.bytes ++ '/' ::
    (Text.Crockford.encodeChars h.signature.bytes ++ '/' ::
      (toString h.expiration.epochSeconds).toList)
  have time := h.expiration.ofEpochSeconds?_epochSeconds
  have pathSpelled : PathSpells path h.peer h.signature h.expiration.throughSeconds :=
    ⟨_, _, _, _, rfl, Text.Crockford.map_canonical_encodeChars _,
      Text.Crockford.map_canonical_encodeChars _, Text.Decimal.spells_toString _,
      Timestamp.le_of_ofEpochSeconds? time, time⟩
  by_cases nonempty : h.addresses = []
  · refine ⟨path, [], ?_, pathSpelled, nonempty ▸ .absent⟩
    simp [url, urlStart, path, nonempty, Text.Crockford.encode]
  · refine ⟨path, _, ?_, pathSpelled, querySpells_intercalate nonempty schemes⟩
    simp [url, urlStart, path, nonempty, Text.Crockford.encode]

/-- An announcement whose addresses are valid is read back from its URL with all that it
says, and with the time that its whole seconds say. -/
theorem parseUrl_url {h : Hello} (valid : ∀ a ∈ h.addresses, a.valid) (now : Timestamp) :
    parseUrl now false h.url = .ok { h with expiration := h.expiration.throughSeconds } := by
  have formed (a : Address) (member : a ∈ h.addresses) : a.WellFormed :=
    Address.valid_iff.1 (valid a member)
  exact parseUrl_false_eq_ok_iff.2 ⟨urlSpells_url fun a member => (formed a member).scheme,
    fun a member => (formed a member).authority⟩

theorem url_throughSeconds (h : Hello) :
    { h with expiration := h.expiration.throughSeconds }.url = h.url := by
  simp only [url, Timestamp.epochSeconds_throughSeconds]

/-- The URL of any announcement with well formed addresses is read as the same announcement,
which has the same URL again. Of the expiration it has what the seconds in the URL say. -/
theorem parseUrl_url_same (h : Hello) (formed : ∀ a ∈ h.addresses, a.WellFormed)
    (now : Timestamp) :
    ∃ read, parseUrl now false h.url = .ok read ∧ h.same read = true ∧
      read.peer = h.peer ∧ read.signature = h.signature ∧ read.addresses = h.addresses ∧
      some read.expiration = Timestamp.ofEpochSeconds? h.expiration.epochSeconds ∧
      read.url = h.url := by
  have valid : ∀ a ∈ h.addresses, a.valid := fun a member => Address.valid_iff.2 (formed a member)
  have same : h.same { h with expiration := h.expiration.throughSeconds } = true := by
    simp [Hello.same]
  exact ⟨_, parseUrl_url valid now, same, rfl, rfl, rfl,
    h.expiration.ofEpochSeconds?_epochSeconds.symm, url_throughSeconds h⟩

/-- An expiration with half a second, and authorities with separators in them. -/
theorem parseUrl_url_same_separators :
    let h : Hello :=
      ⟨⟨.zero 32⟩, .empty, .ofMicros 1500000, [⟨"ip+udp", "ü&=%?/"⟩, ⟨"tcp", "://"⟩]⟩
    (∀ a ∈ h.addresses, a.WellFormed) ∧
      ∃ read, parseUrl .never false h.url = .ok read ∧ h.same read = true ∧
        some read.expiration = Timestamp.ofEpochSeconds? 1 ∧ read.url = h.url := by
  intro h
  have formed : ∀ a ∈ h.addresses, a.WellFormed := by decide
  have second : h.expiration.epochSeconds = 1 := by decide
  obtain ⟨read, parsed, same, -, -, -, expiration, url⟩ := parseUrl_url_same h formed .never
  rw [second] at expiration
  exact ⟨formed, read, parsed, same, expiration, url⟩

theorem schemes_of_itemSpells {items : List (List Char)} {addresses : List Address}
    (each : List.Forall₂ ItemSpells items addresses) :
    ∀ a ∈ addresses, Address.SchemeText a.scheme := by
  induction each with
  | nil => exact List.forall_mem_nil _
  | cons first _ ih =>
    obtain ⟨scheme, -⟩ := first
    exact List.forall_mem_cons.2 ⟨scheme, ih⟩

theorem QuerySpells.schemes {query : List Char} {addresses : List Address}
    (spelled : QuerySpells query addresses) : ∀ a ∈ addresses, Address.SchemeText a.scheme := by
  cases spelled with
  | absent => exact List.forall_mem_nil _
  | items nonempty free each => exact schemes_of_itemSpells each

/-- However a URL was spelled, what is read from it has a URL from which the same is read. -/
theorem parseUrl_url_of_parseUrl {now later : Timestamp} {url : String} {h : Hello}
    (read : parseUrl now false url = .ok h) : parseUrl later false h.url = .ok h := by
  obtain ⟨⟨path, query, -, pathSpelled, querySpelled⟩, authorities⟩ :=
    parseUrl_false_eq_ok_iff.1 read
  obtain ⟨-, -, -, seconds, -, -, -, -, -, time⟩ := pathSpelled
  have valid : ∀ a ∈ h.addresses, a.valid := fun a member =>
    Address.valid_iff.2 ⟨querySpelled.schemes a member, authorities a member⟩
  rw [parseUrl_url valid, Timestamp.throughSeconds_of_ofEpochSeconds? time]

/-- A text is read as an announcement exactly if the grammar has it for the announcement and
each authority is neither empty nor holds NUL. A strict reader takes of these what is not
expired. -/
theorem parseUrl_iff_spelled (url : String) (now : Timestamp) :
    (∀ h, parseUrl now false url = .ok h ↔
        UrlSpells url h ∧ ∀ a ∈ h.addresses, a.authority ≠ "" ∧ '\x00' ∉ a.authority.toList) ∧
      (∀ h, parseUrl now true url = .ok h ↔
        parseUrl now false url = .ok h ∧ h.expiration.isExpired now = false) ∧
      ∀ h later, parseUrl now false url = .ok h → parseUrl later false h.url = .ok h := by
  refine ⟨fun h => parseUrl_false_eq_ok_iff, fun h => parseUrl_true_eq_ok_iff, ?_⟩
  intro h later read
  exact parseUrl_url_of_parseUrl read

/-- Look-alikes of the digit zero, a plus sign with a leading zero, and an escape in lower
case with an equals sign after it. -/
theorem parseUrl_iff_spelled_lenient :
    let path := String.ofList (List.replicate 52 'o') ++ "/" ++
      String.ofList (List.replicate 103 'O') ++ "/+01"
    let url := "gnunet://hello/" ++ path ++ "?tcp=%3a="
    let h : Hello := ⟨⟨.zero 32⟩, .empty, .ofMicros 1000000, [⟨"tcp", ":="⟩]⟩
    UrlSpells url h ∧ parseUrl .never false url = .ok h ∧ parseUrl .never false h.url = .ok h := by
  intro path url h
  have item : ItemSpells "tcp=%3a=".toList ⟨"tcp", ":="⟩ := by
    refine ⟨Address.validScheme_iff.1 (by decide), "%3a=", by decide, ?_⟩
    exact Text.Percent.unescape_eq_ok_iff.1 (by decide)
  have query : QuerySpells "?tcp=%3a=".toList h.addresses :=
    querySpells_cons_iff.2 ⟨["tcp=%3a=".toList], by decide, by decide, by decide, .cons item .nil⟩
  have secondsRead : Text.Decimal.read? 2 "+01".toList = some 1 := by decide
  have seconds := (Text.Decimal.read?_eq_some_iff.1 secondsRead).1
  have joined : path.toList =
      List.replicate 52 'o' ++ '/' :: (List.replicate 103 'O' ++ '/' :: "+01".toList) := by
    simp only [path, String.toList_append, String.toList_ofList, List.append_assoc]
    rfl
  have elements : PathSpells path.toList h.peer h.signature h.expiration :=
    ⟨List.replicate 52 'o', List.replicate 103 'O', "+01".toList, 1, joined, by decide,
      by decide, seconds, by decide, by decide⟩
  have spelled : UrlSpells url h := by
    refine ⟨_, _, ?_, elements, query⟩
    simp only [url, String.toList_append, List.append_assoc]
  obtain ⟨reads, -, again⟩ := parseUrl_iff_spelled url .never
  have read := (reads h).2 ⟨spelled, by decide⟩
  exact ⟨spelled, read, again h .never read⟩

/-- The grammar alone also has an empty authority, which is not read: an announcement with
such an address has a URL, but none that it is read from. -/
theorem parseUrl_empty_authority :
    let h : Hello := ⟨⟨.zero 32⟩, .empty, .ofMicros 0, [⟨"tcp", ""⟩]⟩
    UrlSpells h.url h ∧ parseUrl .never false h.url ≠ .ok h := by
  intro h
  have scheme : Address.SchemeText "tcp" := Address.validScheme_iff.1 (by decide)
  have schemes : ∀ a ∈ h.addresses, Address.SchemeText a.scheme :=
    List.forall_mem_singleton.2 scheme
  have time : h.expiration.throughSeconds = h.expiration := by decide
  have spelled := urlSpells_url schemes
  rw [time] at spelled
  refine ⟨spelled, fun read => ?_⟩
  obtain ⟨-, authorities⟩ := parseUrl_false_eq_ok_iff.1 read
  exact (authorities ⟨"tcp", ""⟩ (by decide)).1 rfl

theorem signedData_expiration_injective {h : Hello} {expiration : Timestamp}
    (same : { h with expiration }.signedData = h.signedData) : expiration = h.expiration := by
  simp only [signedData, List.append_assoc, List.append_cancel_left_eq] at same
  have sized : expiration.bytes.length = h.expiration.bytes.length := by simp
  exact Timestamp.bytes_injective (List.append_inj_left same sized)

/-- The URL of an announcement that was made with an expiration, with whatever signature,
keeps the expiration, what the signature covers and so the outcome of its check, unless the
expiration lies in the last second of all and is not "never". Then "never" is read. -/
theorem parseUrl_url_make (peer : PeerId) (addresses : List Address) (signature : Signature)
    (expiration now : Timestamp) (valid : ∀ a ∈ addresses, a.valid) :
    let h : Hello := { make peer addresses expiration with signature }
    ∃ read, parseUrl now false h.url = .ok read ∧ read.peer = h.peer ∧
      read.signature = h.signature ∧ read.addresses = h.addresses ∧
      (read.expiration = h.expiration ↔ expiration.KeptBySeconds) ∧
      (read.signedData = h.signedData ↔ expiration.KeptBySeconds) ∧
      (expiration.KeptBySeconds → ∀ C, read.verify C = h.verify C) ∧
      (¬ expiration.KeptBySeconds → read.expiration = .never) := by
  intro h
  have through : h.expiration.throughSeconds =
      if expiration.KeptBySeconds then h.expiration else .never :=
    expiration.throughSeconds_truncateToSeconds
  have expiration_iff : h.expiration.throughSeconds = h.expiration ↔ expiration.KeptBySeconds := by
    rw [through]
    by_cases kept : expiration.KeptBySeconds
    · simp [kept]
    · have finite : expiration ≠ .never := fun same => kept (.inl same)
      have other : h.expiration ≠ .never := Timestamp.truncateToSeconds_ne_never finite
      simpa [kept] using other.symm
  have whole (same : h.expiration.throughSeconds = h.expiration) :
      { h with expiration := h.expiration.throughSeconds } = h := by rw [same]
  refine ⟨{ h with expiration := h.expiration.throughSeconds }, parseUrl_url valid now, rfl, rfl,
    rfl, expiration_iff, ⟨?covered, ?kept⟩, ?verified, ?lost⟩
  case covered => exact fun same => expiration_iff.1 (signedData_expiration_injective same)
  case kept => exact fun kept => by rw [whole (expiration_iff.2 kept)]
  case verified => exact fun kept C => by rw [whole (expiration_iff.2 kept)]
  case lost => exact fun lost => through.trans (if_neg lost)

/-- One and a half seconds are kept as one second. -/
theorem parseUrl_url_make_fraction :
    (∀ a ∈ [Address.mk "tcp" "1.2.3.4:5"], a.valid) ∧
      (let h := make ⟨.zero 32⟩ [⟨"tcp", "1.2.3.4:5"⟩] (.ofMicros 1500000)
      ∃ read, parseUrl .never false h.url = .ok read ∧ read.expiration = h.expiration ∧
        ∀ C, read.verify C = h.verify C) := by
  have valid : ∀ a ∈ [Address.mk "tcp" "1.2.3.4:5"], a.valid := by decide
  have early : (Timestamp.ofMicros 1500000).toNat < 18446744073709000000 := by decide
  obtain ⟨read, parsed, -, -, -, expiration_iff, -, verified, -⟩ :=
    parseUrl_url_make ⟨.zero 32⟩ [⟨"tcp", "1.2.3.4:5"⟩] .empty (.ofMicros 1500000) .never valid
  exact ⟨valid, read, parsed, expiration_iff.2 (.inr early), verified (.inr early)⟩

/-- The latest time that is not "never" is announced with its second, which is read as
"never": a signature of the announcement does not cover what is read. -/
theorem expiration_lost_in_last_second :
    let h := make ⟨.zero 32⟩ [⟨"tcp", "1.2.3.4:5"⟩] (.ofMicros (UInt64.size - 2))
    (∀ a ∈ h.addresses, a.valid) ∧
      ¬ ∃ read, parseUrl .never false h.url = .ok read ∧ read.expiration = h.expiration ∧
        read.signedData = h.signedData := by
  intro h
  have valid : ∀ a ∈ h.addresses, a.valid := by decide
  refine ⟨valid, ?_⟩
  rintro ⟨read, parsed, same, -⟩
  obtain rfl := Except.ok.inj ((parseUrl_url valid .never).symm.trans parsed)
  revert same
  decide

end Overlay.Hello
