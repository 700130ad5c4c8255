import Overlay.Block.Hello.Url
import Overlay.Proofs.Address
import Overlay.Proofs.Except
import Overlay.Proofs.Text.Crockford
import Overlay.Proofs.Text.Decimal
import Overlay.Proofs.Text.Percent
import Overlay.Proofs.Text.Split
import Overlay.Proofs.Time

/-! The grammar of announcement URLs, apart from the order in which a URL is cut up and its
parts are checked. What is read is what the grammar says, where authorities are well formed. -/
namespace Overlay.Hello

/-- An item of the query: a scheme, which holds no equals sign, one that ends it, and the
authority with escapes. -/
def ItemSpells (item : List Char) (a : Address) : Prop :=
  Address.SchemeText a.scheme ∧ ∃ value : String,
    item = a.scheme.toList ++ '=' :: value.toList ∧
      Text.Percent.Escapes (Text.utf8 value) (Text.utf8 a.authority)

/-- What follows the path: nothing if there is no address, else a question mark and one item
for each address, with ampersands between them and nowhere else. -/
inductive QuerySpells : List Char → List Address → Prop
  | absent : QuerySpells [] []
  | items {items : List (List Char)} {addresses : List Address} (nonempty : items ≠ [])
      (free : ∀ item ∈ items, '&' ∉ item) (each : List.Forall₂ ItemSpells items addresses) :
      QuerySpells ('?' :: ['&'].intercalate items) addresses

/-- The three elements of the path: peer and signature in base 32, of which characters may be
in lower case or look-alikes, and the seconds. -/
def PathSpells (path : List Char) (peer : PeerId) (signature : Signature)
    (expiration : Timestamp) : Prop :=
  ∃ p s t n, path = p ++ '/' :: (s ++ '/' :: t) ∧
    p.map Text.Crockford.canonical = Text.Crockford.encodeChars peer.bytes ∧
    s.map Text.Crockford.canonical = Text.Crockford.encodeChars signature.bytes ∧
    Text.Decimal.Spells t n ∧ n ≤ 18446744073709 ∧
    Timestamp.ofEpochSeconds? n = some expiration

/-- A text that the grammar has for an announcement. -/
def UrlSpells (url : String) (h : Hello) : Prop :=
  ∃ path query, url.toList = "gnunet://hello/".toList ++ (path ++ query) ∧
    PathSpells path h.peer h.signature h.expiration ∧ QuerySpells query h.addresses

theorem parseParameter_eq_ok_iff {item : List Char} {a : Address} :
    parseParameter item = .ok a ↔ ItemSpells item a ∧ Address.AuthorityText a.authority := by
  constructor
  · intro read
    unfold parseParameter at read
    split at read
    · contradiction
    · next scheme value cut =>
      obtain ⟨rfl, -⟩ := Text.splitOnce_singleton_eq_some_iff.1 cut
      dsimp only at read
      split at read
      · contradiction
      · next authority unescaped =>
        split at read
        · next address made =>
          obtain rfl := Except.ok.inj read
          obtain ⟨rfl, formed⟩ := Address.make_eq_ok_iff.1 made
          have escaped := Text.Percent.unescape_eq_ok_iff.1 unescaped
          refine ⟨⟨formed.scheme, String.ofList value, ?_, escaped⟩, formed.authority⟩
          simp only [String.toList_ofList]
        · contradiction
  · rintro ⟨⟨scheme, value, rfl, escaped⟩, authority⟩
    have free : '=' ∉ a.scheme.toList := Address.not_mem_scheme scheme (by decide)
    have cut := Text.splitOnce_append free value.toList
    have unescaped := Text.Percent.unescape_eq_ok_iff.2 escaped
    have made : Address.make a.scheme a.authority = .ok a :=
      Address.make_eq_ok_iff.2 ⟨rfl, scheme, authority⟩
    simp only [parseParameter, cut, String.ofList_toList, unescaped, made]

def queryPart : Option (List Char) → List Char
  | none => []
  | some query => '?' :: query

theorem splitQuery_eq_ok_iff {rest path : List Char} {query : Option (List Char)} :
    splitQuery rest = .ok (path, query) ↔
      rest = path ++ queryPart query ∧ '?' ∉ path ∧ query ≠ some [] := by
  constructor
  · intro cut
    unfold splitQuery at cut
    split at cut
    · next whole =>
      obtain ⟨rfl, rfl⟩ := Prod.mk.inj (Except.ok.inj cut)
      exact ⟨(List.append_nil _).symm, Text.splitOnce_singleton_eq_none_iff.1 whole, nofun⟩
    · contradiction
    · next front back nonempty found =>
      obtain ⟨rfl, rfl⟩ := Prod.mk.inj (Except.ok.inj cut)
      obtain ⟨rfl, free⟩ := Text.splitOnce_singleton_eq_some_iff.1 found
      exact ⟨rfl, free, fun empty => nonempty (Option.some.inj empty)⟩
  · rintro ⟨rfl, free, nonempty⟩
    match query with
    | none => simp only [queryPart, splitQuery, List.append_nil, Text.splitOnce_of_not_mem free]
    | some [] => contradiction
    | some (c :: query) => simp only [queryPart, splitQuery, Text.splitOnce_append free]

theorem PathSpells.question_not_mem {path : List Char} {peer : PeerId} {signature : Signature}
    {expiration : Timestamp} (spelled : PathSpells path peer signature expiration) :
    '?' ∉ path := by
  obtain ⟨p, s, t, n, rfl, peerSpelled, signatureSpelled, secondsSpelled, -, -⟩ := spelled
  rw [List.mem_append, List.mem_cons, List.mem_append, List.mem_cons]
  rintro (inPeer | slash | inSignature | slash | inSeconds)
  · exact Text.Crockford.not_mem_of_map_canonical peerSpelled (by decide) inPeer
  · contradiction
  · exact Text.Crockford.not_mem_of_map_canonical signatureSpelled (by decide) inSignature
  · contradiction
  · exact Text.Decimal.not_mem_of_spells secondsSpelled (by decide) (by decide) inSeconds

theorem pathSpells_of_parsePath {path : List Char} {peer : PeerId} {signature : Signature}
    {expiration : Timestamp} (read : parsePath path = .ok (peer, signature, expiration)) :
    PathSpells path peer signature expiration := by
  unfold parsePath at read
  split at read
  · next p s t cut =>
    obtain ⟨-, -, rfl⟩ := Text.splitAll_eq_iff.1 cut
    split at read
    · contradiction
    · next key peerRead =>
      split at read
      · contradiction
      · next octets signatureRead =>
        split at read
        · contradiction
        · next n secondsRead =>
          split at read
          · contradiction
          · next time timeRead =>
            obtain ⟨rfl, rfl, rfl⟩ : _ ∧ _ ∧ _ := by simpa using read
            have peerSpelled := Text.Crockford.decodeExact_eq_ok_iff.1 peerRead
            have signatureSpelled := Text.Crockford.decodeExact_eq_ok_iff.1 signatureRead
            have secondsSpelled := (Text.Decimal.read?_eq_some_iff.1 secondsRead).1
            have small := Timestamp.le_of_ofEpochSeconds? timeRead
            rw [String.toList_ofList] at peerSpelled signatureSpelled
            have whole : ['/'].intercalate [p, s, t] = p ++ '/' :: (s ++ '/' :: t) := by simp
            exact ⟨p, s, t, n, whole, peerSpelled, signatureSpelled, secondsSpelled, small,
              timeRead⟩
  · contradiction

/-- None of the three elements has a slash in it, so the path is cut where it was joined. -/
theorem parsePath_of_pathSpells {path : List Char} {peer : PeerId} {signature : Signature}
    {expiration : Timestamp} (spelled : PathSpells path peer signature expiration) :
    parsePath path = .ok (peer, signature, expiration) := by
  obtain ⟨p, s, t, n, rfl, peerSpelled, signatureSpelled, secondsSpelled, small, time⟩ := spelled
  have peerFree : '/' ∉ p := Text.Crockford.not_mem_of_map_canonical peerSpelled (by decide)
  have signatureFree : '/' ∉ s :=
    Text.Crockford.not_mem_of_map_canonical signatureSpelled (by decide)
  have secondsFree : '/' ∉ t :=
    Text.Decimal.not_mem_of_spells secondsSpelled (by decide) (by decide)
  have pieces : Text.splitAll '/' (p ++ '/' :: (s ++ '/' :: t)) = [p, s, t] := by
    rw [Text.splitAll_append peerFree, Text.splitAll_append signatureFree,
      Text.splitAll_of_not_mem secondsFree]
  have peerRead : Text.Crockford.decodeExact (String.ofList p) 32 = .ok peer.key :=
    Text.Crockford.decodeExact_eq_ok_iff.2 (by rwa [String.toList_ofList])
  have signatureRead : Text.Crockford.decodeExact (String.ofList s) 64 = .ok signature.octets :=
    Text.Crockford.decodeExact_eq_ok_iff.2 (by rwa [String.toList_ofList])
  have word : n < UInt64.size := Nat.lt_of_le_of_lt small (by decide)
  have secondsRead : Text.Decimal.read? UInt64.size t = some n :=
    Text.Decimal.read?_eq_some_iff.2 ⟨secondsSpelled, word⟩
  simp only [parsePath, pieces, peerRead, signatureRead, secondsRead, time]

theorem parsePath_eq_ok_iff {path : List Char} {peer : PeerId} {signature : Signature}
    {expiration : Timestamp} :
    parsePath path = .ok (peer, signature, expiration) ↔
      PathSpells path peer signature expiration :=
  ⟨pathSpells_of_parsePath, parsePath_of_pathSpells⟩

theorem querySpells_nil_iff {addresses : List Address} :
    QuerySpells [] addresses ↔ addresses = [] := by
  constructor
  · rintro ⟨⟩
    rfl
  · rintro rfl
    exact .absent

theorem querySpells_cons_iff {query : List Char} {addresses : List Address} :
    QuerySpells ('?' :: query) addresses ↔ ∃ items, items ≠ [] ∧ (∀ item ∈ items, '&' ∉ item) ∧
      query = ['&'].intercalate items ∧ List.Forall₂ ItemSpells items addresses := by
  constructor
  · rintro ⟨⟩
    next items nonempty free each => exact ⟨items, nonempty, free, rfl, each⟩
  · rintro ⟨items, nonempty, free, rfl, each⟩
    exact .items nonempty free each

theorem QuerySpells.eq_queryPart {part : List Char} {addresses : List Address}
    (spelled : QuerySpells part addresses) : ∃ query, part = queryPart query := by
  cases spelled with
  | absent => exact ⟨none, rfl⟩
  | items => exact ⟨some _, rfl⟩

theorem parseQuery_eq_ok_iff {query : Option (List Char)} {addresses : List Address} :
    parseQuery query = .ok addresses ↔
      QuerySpells (queryPart query) addresses ∧
        ∀ a ∈ addresses, Address.AuthorityText a.authority := by
  cases query with
  | none =>
    rw [queryPart, querySpells_nil_iff]
    constructor
    · intro read
      obtain rfl := Except.ok.inj read
      exact ⟨rfl, List.forall_mem_nil _⟩
    · rintro ⟨rfl, -⟩
      rfl
  | some query =>
    rw [queryPart, querySpells_cons_iff, parseQuery, mapM_eq_ok_iff]
    simp only [parseParameter_eq_ok_iff, forall₂_and_right]
    constructor
    · rintro ⟨each, authorities⟩
      obtain ⟨nonempty, free, whole⟩ := Text.splitAll_eq_iff.1 (Eq.refl (Text.splitAll '&' query))
      exact ⟨⟨_, nonempty, free, whole, each⟩, authorities⟩
    · rintro ⟨⟨items, nonempty, free, rfl, each⟩, authorities⟩
      rw [Text.splitAll_intercalate nonempty free]
      exact ⟨each, authorities⟩

theorem parseUrl_eq_ok_iff {now : Timestamp} {strict : Bool} {url : String} {h : Hello} :
    parseUrl now strict url = .ok h ↔
      ∃ path query, url.toList = urlStart.toList ++ (path ++ queryPart query) ∧
        '?' ∉ path ∧ parsePath path = .ok (h.peer, h.signature, h.expiration) ∧
        (strict && h.expiration.isExpired now) = false ∧ parseQuery query = .ok h.addresses := by
  constructor
  · intro read
    unfold parseUrl at read
    split at read
    · contradiction
    · next starts =>
      obtain ⟨⟨path, query⟩, cut, read⟩ := bind_eq_ok_iff.1 read
      obtain ⟨⟨peer, signature, expiration⟩, pathRead, read⟩ := bind_eq_ok_iff.1 read
      dsimp only at read
      split at read
      · contradiction
      · next fresh =>
        obtain ⟨addresses, queryRead, whole⟩ := bind_eq_ok_iff.1 read
        obtain rfl := Except.ok.inj whole
        obtain ⟨rest, free, -⟩ := splitQuery_eq_ok_iff.1 (mapError_eq_ok_iff.1 cut)
        have isStart : urlStart.toList <+: url.toList :=
          List.isPrefixOf_iff_prefix.1 (by simpa using starts)
        have whole : url.toList = urlStart.toList ++ (path ++ queryPart query) := by
          rw [← rest]
          exact (List.prefix_iff_eq_append.1 isStart).symm
        exact ⟨path, query, whole, free, mapError_eq_ok_iff.1 pathRead,
          Bool.eq_false_iff.2 fresh, mapError_eq_ok_iff.1 queryRead⟩
  · rintro ⟨path, query, whole, free, pathRead, fresh, queryRead⟩
    have starts : urlStart.toList.isPrefixOf url.toList = true :=
      List.isPrefixOf_iff_prefix.2 ⟨_, whole.symm⟩
    have rest : url.toList.drop urlStart.toList.length = path ++ queryPart query := by
      rw [whole, List.drop_left]
    -- An empty query is one empty item, which has no equals sign.
    have nonempty : query ≠ some [] := by
      rintro rfl
      exact absurd queryRead nofun
    have cut : splitQuery (path ++ queryPart query) = .ok (path, query) :=
      splitQuery_eq_ok_iff.2 ⟨rfl, free, nonempty⟩
    simp only [parseUrl, starts, rest, cut, pathRead, fresh, queryRead, Except.mapError, ok_bind,
      Bool.not_true, Bool.false_eq_true, if_false]
    rfl

theorem parseUrl_false_eq_ok_iff {now : Timestamp} {url : String} {h : Hello} :
    parseUrl now false url = .ok h ↔
      UrlSpells url h ∧ ∀ a ∈ h.addresses, Address.AuthorityText a.authority := by
  rw [parseUrl_eq_ok_iff]
  constructor
  · rintro ⟨path, query, whole, -, pathRead, -, queryRead⟩
    obtain ⟨querySpelled, authorities⟩ := parseQuery_eq_ok_iff.1 queryRead
    exact ⟨⟨path, _, whole, parsePath_eq_ok_iff.1 pathRead, querySpelled⟩, authorities⟩
  · rintro ⟨⟨path, part, whole, pathSpelled, querySpelled⟩, authorities⟩
    obtain ⟨query, rfl⟩ := querySpelled.eq_queryPart
    exact ⟨path, query, whole, pathSpelled.question_not_mem, parsePath_eq_ok_iff.2 pathSpelled,
      rfl, parseQuery_eq_ok_iff.2 ⟨querySpelled, authorities⟩⟩

theorem parseUrl_true_eq_ok_iff {now : Timestamp} {url : String} {h : Hello} :
    parseUrl now true url = .ok h ↔
      parseUrl now false url = .ok h ∧ h.expiration.isExpired now = false := by
  simp only [parseUrl_eq_ok_iff, Bool.true_and, Bool.false_and]
  constructor
  · rintro ⟨path, query, whole, free, pathRead, fresh, queryRead⟩
    exact ⟨⟨path, query, whole, free, pathRead, trivial, queryRead⟩, fresh⟩
  · rintro ⟨⟨path, query, whole, free, pathRead, -, queryRead⟩, fresh⟩
    exact ⟨path, query, whole, free, pathRead, fresh, queryRead⟩

end Overlay.Hello
