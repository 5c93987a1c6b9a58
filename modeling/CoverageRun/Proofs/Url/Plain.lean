/-
Plain URLs: a web scheme, a host name and perhaps a port, and a path, all in characters that a URL
takes as they are. Such a URL is read as what is written in it, with the letters of its host made
small and the scheme's own port left out; and the text of what is read is read as the same.
-/
import CoverageRun.Proofs.Url.Host
import Mathlib.Tactic.Simps.Basic

namespace CoverageRun.Url

open Text

/-! ## Paths -/

/-- The characters of plain segments beside letters and digits. -/
def segmentMarks : List Char := ['-', '_', '~']

/-- A segment of plain characters. -/
def IsPlainSegment (segment : String) : Prop := ∀ c ∈ segment.toList, isPlain segmentMarks c = true

instance (segment : String) : Decidable (IsPlainSegment segment) :=
  decidable_of_iff (segment.toList.all (isPlain segmentMarks) = true) List.all_eq_true

/-- Segments, each behind its slash. -/
def pathText (segments : List String) : List Char := segments.flatMap fun s => '/' :: s.toList

section Segment

variable {segment : String} (h : IsPlainSegment segment)
include h

theorem IsPlainSegment.not_mem {c : Char} (hc : isPlain segmentMarks c = false) :
    c ∉ segment.toList := fun m => by
  rw [h c m] at hc
  cases hc

theorem IsPlainSegment.segmentText : segmentText segment.toList = segment := by
  have hbare : ∀ c ∈ segment.toList, ¬ (0x7F ≤ c.toNat ∨ c < ' ' ∨ pathSet c = true) := fun c hc =>
    forall_isPlain (p := fun c => ¬ (0x7F ≤ c.toNat ∨ c < ' ' ∨ pathSet c = true)) (by decide)
      (by decide +kernel) (h c hc)
  rw [Url.segmentText, encode_eq_self hbare, String.ofList_toList]

/-- A plain segment is no step to the directory itself or above. -/
theorem IsPlainSegment.isName : isHere segment = false ∧ isUp segment = false := by
  -- every way to write such a step has a dot or an escape
  have hdot : '.' ∉ segment.toList := h.not_mem (by decide)
  have hpercent : '%' ∉ segment.toList := h.not_mem (by decide)
  have hother : ∀ other : String, '.' ∈ other.toList ∨ '%' ∈ other.toList → segment ≠ other := by
    rintro other (hm | hm) rfl
    · exact hdot hm
    · exact hpercent hm
  constructor
  · simp [isHere, hother]
  · simp [isUp, hother]

end Segment

theorem addSegments_plain : ∀ {segments before : List String}, (∀ s ∈ segments, IsPlainSegment s) →
    addSegments before segments = before ++ segments
  | [], before, _ => by simp [addSegments]
  | [s], before, h => by
    obtain ⟨hhere, hup⟩ := (h s List.mem_cons_self).isName
    simp [addSegments, addSegment, hhere, hup]
  | s :: t :: r, before, h => by
    obtain ⟨hs, hr⟩ := List.forall_mem_cons.1 h
    obtain ⟨hhere, hup⟩ := hs.isName
    have hstep : addSegment before s false = before ++ [s] := by simp [addSegment, hhere, hup]
    rw [addSegments, hstep, addSegments_plain hr, List.append_assoc, List.singleton_append]

theorem pathText_cons : ∀ (s : String) (r : List String),
    pathText (s :: r) = '/' :: join ['/'] ((s :: r).map String.toList)
  | s, [] => by simp [pathText, join]
  | s, t :: r => by
    have hrest := pathText_cons t r
    unfold pathText at hrest ⊢
    rw [List.flatMap_cons, hrest]
    simp [join]

theorem isPlain_path {segments : List String} (h : ∀ s ∈ segments, IsPlainSegment s) {c : Char}
    (hc : c ∈ pathText segments) : isPlain ('/' :: segmentMarks) c = true := by
  obtain ⟨s, hs, hc⟩ := List.mem_flatMap.1 hc
  rcases List.mem_cons.1 hc with rfl | hc
  · decide
  · exact isPlain_mono (by decide) (h s hs c hc)

/-- A path of plain segments is read as these. -/
theorem readPath_pathText {segments : List String} (hne : segments ≠ [])
    (h : ∀ s ∈ segments, IsPlainSegment s) :
    readPath .network (dropSlash .network (pathText segments)) = segments := by
  have hslash : ∀ p ∈ segments.map String.toList, '/' ∉ p := by
    intro p hp
    obtain ⟨s, hs, rfl⟩ := List.mem_map.1 hp
    exact (h s hs).not_mem (by decide)
  obtain ⟨s, r, rfl⟩ := List.exists_cons_of_ne_nil hne
  have hsame : ((join ['/'] ((s :: r).map String.toList)).map fun c =>
      if Kind.network.isSlash c then '/' else c) = join ['/'] ((s :: r).map String.toList) := by
    conv_rhs => rw [← List.map_id (join _ _)]
    refine List.map_congr_left fun c hc => ?_
    have hmem : c ∈ pathText (s :: r) := by
      rw [pathText_cons]
      exact List.mem_cons_of_mem _ hc
    exact forall_isPlain (p := fun c => (if Kind.network.isSlash c then '/' else c) = id c)
      (by decide) (by decide +kernel) (isPlain_path h hmem)
  have hsegments : ∀ t ∈ s :: r, (segmentText ∘ String.toList) t = id t := fun t ht =>
    (h t ht).segmentText
  rw [pathText_cons, dropSlash, if_pos (by decide), readPath, splitPath, hsame,
    split_join (by simp) hslash, List.map_map, List.map_congr_left hsegments, List.map_id,
    addSegments_plain h, List.nil_append]

/-! ## Plain URLs -/

/-- A plain URL. A slash at its end does not belong to it. -/
structure Plain where
  scheme : String
  host : String
  port : Option String
  segments : List String
  isWeb : IsWebScheme scheme
  isHost : IsPlainHost host.toList
  isPort : ∀ digits ∈ port, IsPort digits.toList
  isPath : ∀ s ∈ segments, IsPlainSegment s
  isClosed : segments.getLast? ≠ some ""

namespace Plain

/-- The path as it is written. -/
def path (p : Plain) : String := (Route.names p.segments).text

/-- The URL as it is written. -/
def text (p : Plain) : String :=
  let port :=
    match p.port with
    | none => ""
    | some digits => ":" ++ digits
  p.scheme ++ "://" ++ p.host ++ port ++ p.path

/-- The host, and the port behind its colon. -/
def authorityText (p : Plain) : List Char :=
  p.host.toList ++ portText (p.port.map String.toList)

/-- The host in small letters, and the port unless the scheme uses it anyway. -/
def authority (p : Plain) : Authority :=
  ⟨"", "", .name (String.ofList (p.host.toList.map Char.toLower)),
    portNumber? p.scheme ((p.port.map String.toList).getD [])⟩

/-- What is read of the URL, with a query behind it. -/
def url (p : Plain) (query : Option String) : Url :=
  ⟨p.scheme, some p.authority, .names p.segments, query, none⟩

/-- More segments below the path. -/
def below (p : Plain) (more : List String) (hmore : ∀ s ∈ more, IsPlainSegment s)
    (hclosed : ∀ s ∈ more.getLast?, s ≠ "") : Plain where
  scheme := p.scheme
  host := p.host
  port := p.port
  segments := p.segments ++ more
  isWeb := p.isWeb
  isHost := p.isHost
  isPort := p.isPort
  isPath s hs := (List.mem_append.1 hs).elim (p.isPath s) (hmore s)
  isClosed h := by
    rw [List.getLast?_append] at h
    cases hlast : more.getLast? with
    | none =>
      rw [hlast, Option.none_or] at h
      exact p.isClosed h
    | some last =>
      rw [hlast, Option.some_or] at h
      exact hclosed last hlast (Option.some.inj h)

variable (p : Plain)

@[simp]
theorem toList_path : p.path.toList = pathText p.segments := by
  unfold path Route.text pathText
  rw [String.toList_join, List.flatMap_map]
  simp

theorem toList_text : p.text.toList =
    p.scheme.toList ++ ':' :: '/' :: '/' :: (p.authorityText ++ pathText p.segments) := by
  unfold text authorityText
  cases p.port <;> simp [portText]

theorem isPort_getD : IsPort ((p.port.map String.toList).getD []) := by
  cases hport : p.port with
  | none => exact ⟨by simp, by decide⟩
  | some digits => exact p.isPort digits hport

theorem isPlain_authorityText {c : Char} (hc : c ∈ p.authorityText) :
    isPlain (':' :: hostMarks) c = true :=
  isPlain_authority p.isHost p.isPort_getD hc

/-- No slash is left at the end. -/
theorem getLast?_text : p.text.toList.getLast? ≠ some '/' := by
  have hfront : p.authorityText ≠ [] := by simp [authorityText, p.isHost.ne_nil]
  intro hslash
  rw [toList_text, List.append_cons, List.append_cons, List.append_cons, ← List.append_assoc] at hslash
  rcases List.eq_nil_or_concat p.segments with hnil | ⟨init, last, hconcat⟩
  · rw [hnil, pathText, List.flatMap_nil, List.append_nil,
      List.getLast?_append_of_ne_nil _ hfront] at hslash
    exact absurd (p.isPlain_authorityText (List.mem_of_getLast? hslash)) (by decide)
  · have hlast : last.toList ≠ [] := fun hempty => p.isClosed (by
      rw [hconcat, List.concat_eq_append, List.getLast?_concat, String.toList_eq_nil_iff.1 hempty])
    have hplain : IsPlainSegment last := p.isPath last (by rw [hconcat]; simp)
    have hpath : pathText p.segments = (pathText init ++ ['/']) ++ last.toList := by
      simp [hconcat, pathText]
    rw [hpath, ← List.append_assoc, List.getLast?_append_of_ne_nil _ hlast] at hslash
    exact hplain.not_mem (by decide) (List.mem_of_getLast? hslash)

end Plain

/-! ## Reading -/

theorem takeScheme?_web {scheme : String} (hscheme : IsWebScheme scheme) (rest : List Char) :
    takeScheme? (scheme.toList ++ ':' :: rest) = some (scheme, rest) := by
  have hcolon : ':' ∉ scheme.toList := by rcases hscheme with rfl | rfl <;> decide
  unfold takeScheme?
  rw [cut_append rest hcolon]
  rcases hscheme with rfl | rfl
  · rfl
  · rfl

/-- A query behind its mark. -/
def queryText : Option (List Char) → List Char
  | none => []
  | some query => '?' :: query

section Query

variable {query : Option (List Char)} (hquery : ∀ q ∈ query, IsFormText q)
include hquery

theorem cutTail_queryText {body : List Char} (hbody : '#' ∉ body ∧ '?' ∉ body) (special : Bool) :
    cutTail special (body ++ queryText query) = (body, query.map String.ofList, none) := by
  have hmark : '#' ∉ body ++ queryText query := by
    refine List.not_mem_append hbody.1 ?_
    cases query with
    | none => exact List.not_mem_nil
    | some q =>
      have hq : '#' ∉ q := fun m => absurd (hquery q rfl _ m) (by decide)
      simpa [queryText] using hq
  unfold cutTail
  rw [cut_eq_none_of_not_mem hmark]
  cases query with
  | none => simp [queryText, cut_eq_none_of_not_mem hbody.2]
  | some q =>
    have hbare : ∀ c ∈ q, ¬ (0x7F ≤ c.toNat ∨ c < ' ' ∨ querySet special c = true) := by
      intro c hc
      cases special <;>
        exact forall_isPlain (p := fun c => ¬ (0x7F ≤ c.toNat ∨ c < ' ' ∨ querySet _ c = true))
          (by decide) (by decide +kernel) (hquery q rfl c hc)
    simp [queryText, cut_append q hbody.2, encode_eq_self hbare]

/-- The characters beside letters and digits that plain URLs are written in. -/
def urlMarks : List Char := formMarks ++ ['&', '=', '~', ':', '/', '?']

theorem isPlain_query {c : Char} (hc : c ∈ queryText query) :
    isPlain urlMarks c = true := by
  cases query with
  | none => cases hc
  | some q =>
    rcases List.mem_cons.1 hc with rfl | hc
    · decide
    · exact isPlain_mono (by decide) (hquery q rfl c hc)

end Query

/-- A text in these characters is read from end to end. -/
theorem parse_eq {cs : List Char} (h : ∀ c ∈ cs, isPlain urlMarks c = true) {scheme : String}
    {rest body : List Char} {query fragment : Option String}
    (hscheme : takeScheme? cs = some (scheme, rest)) (hkind : Kind.ofScheme scheme = .network)
    (htail : cutTail true rest = (body, query, fragment)) :
    parse (String.ofList cs) =
      readNetwork scheme (body.drop (body.takeWhile Kind.network.isSlash).length)
        (rest.drop (body.takeWhile Kind.network.isSlash).length) query fragment := by
  have htrim : ∀ l : List Char, (∀ c ∈ l, isPlain urlMarks c = true) →
      l.dropWhile (fun c => decide (c ≤ ' ')) = l := by
    intro l hl
    cases l with
    | nil => rfl
    | cons c r =>
      have hc : ¬ c ≤ ' ' :=
        forall_isPlain (p := fun c => ¬ c ≤ ' ') (by decide) (by decide +kernel) (hl c List.mem_cons_self)
      simp [hc]
  have hvisible : visible cs = cs := List.filter_eq_self.2 fun c hc =>
    forall_isPlain (p := fun c => (!isSkipped c) = true) (by decide) (by decide +kernel) (h c hc)
  unfold parse
  simp only [String.toList_ofList, htrim cs h, htrim cs.reverse (by simpa using h),
    List.reverse_reverse, hvisible, hscheme, hkind]
  rw [show Kind.network.isSpecial = true from rfl, htail]

namespace Plain

variable (p : Plain)

theorem readNetwork_eq (hne : p.segments ≠ []) (whole : List Char) (query fragment : Option String) :
    readNetwork p.scheme (p.authorityText ++ pathText p.segments) whole query fragment =
      .ok ⟨p.scheme, some p.authority, .names p.segments, query, fragment⟩ := by
  have hinside : ∀ c ∈ p.authorityText, (!Kind.network.endsAuthority c) = true := fun c hc =>
    forall_isPlain (p := fun c => (!Kind.network.endsAuthority c) = true) (by decide)
      (by decide +kernel) (p.isPlain_authorityText hc)
  have hauthority : (p.authorityText ++ pathText p.segments).takeWhile
      (fun c => !Kind.network.endsAuthority c) = p.authorityText := by
    obtain ⟨s, r, hsegments⟩ := List.exists_cons_of_ne_nil hne
    have hslash : Kind.network.endsAuthority '/' = true := by decide
    rw [List.takeWhile_append_of_pos hinside, hsegments, pathText_cons]
    simp [hslash]
  have hread := p.isHost.readAuthority p.isWeb p.isPort_getD (whole.drop p.authorityText.length)
  rw [← authorityText] at hread
  -- the authority ends at the first slash, which the path begins with
  unfold readNetwork
  simp only [p.isWeb.kind, hauthority, List.drop_left, hread, bind, Except.bind, List.nil_append,
    readPath_pathText hne p.isPath]
  exact congrArg Except.ok (by simp [Kind.isSpecial, authority])

/-- What follows the scheme. -/
def body : List Char := '/' :: '/' :: (p.authorityText ++ pathText p.segments)

theorem isPlain_body {c : Char} (hc : c ∈ p.body) :
    isPlain ('/' :: ':' :: hostMarks ++ segmentMarks) c = true := by
  rcases List.mem_cons.1 hc with rfl | hc
  · decide
  rcases List.mem_cons.1 hc with rfl | hc
  · decide
  rcases List.mem_append.1 hc with hc | hc
  · exact isPlain_mono (by decide) (p.isPlain_authorityText hc)
  · exact isPlain_mono (by decide) (isPlain_path p.isPath hc)

/-- Two slashes stand before the host. -/
theorem slashes_body : (p.body.takeWhile Kind.network.isSlash).length = 2 := by
  obtain ⟨c, r, hhost⟩ := List.exists_cons_of_ne_nil p.isHost.ne_nil
  have hc : Kind.network.isSlash c = false :=
    forall_isPlain (p := fun c => Kind.network.isSlash c = false) (by decide) (by decide +kernel)
      (p.isHost.plain c (by rw [hhost]; exact List.mem_cons_self))
  have hslash : Kind.network.isSlash '/' = true := rfl
  simp [body, authorityText, hhost, hslash, hc]

theorem isPlain_text {query : Option (List Char)} (hquery : ∀ q ∈ query, IsFormText q) {c : Char}
    (hc : c ∈ p.scheme.toList ++ ':' :: (p.body ++ queryText query)) : isPlain urlMarks c = true := by
  have hletters : p.scheme.toList.all (isPlain urlMarks) = true := by
    rcases p.isWeb with hscheme | hscheme <;> rw [hscheme] <;> decide
  rcases List.mem_append.1 hc with hc | hc
  · exact List.all_eq_true.1 hletters c hc
  rcases List.mem_cons.1 hc with rfl | hc
  · decide
  rcases List.mem_append.1 hc with hc | hc
  · exact isPlain_mono (by decide) (p.isPlain_body hc)
  · exact isPlain_query hquery hc

/-- A plain URL, with or without a query behind it, is read as what is written in it. -/
theorem parse_text (query : Option (List Char)) (hne : p.segments ≠ [])
    (hquery : ∀ q ∈ query, IsFormText q) :
    parse (String.ofList (p.text.toList ++ queryText query)) =
      .ok (p.url (query.map String.ofList)) := by
  have hmarks : '#' ∉ p.body ∧ '?' ∉ p.body :=
    ⟨fun m => absurd (p.isPlain_body m) (by decide), fun m => absurd (p.isPlain_body m) (by decide)⟩
  have hread := parse_eq (fun c => p.isPlain_text hquery) (takeScheme?_web p.isWeb _) p.isWeb.kind
    (cutTail_queryText hquery hmarks true)
  rw [slashes_body, body, List.drop_succ_cons, List.drop_succ_cons, List.drop_zero,
    p.readNetwork_eq hne] at hread
  rw [toList_text, List.append_assoc]
  exact hread

/-! ## Reading again -/

theorem portNumber?_write {scheme : String} {digits : List Char} {n : Nat}
    (h : portNumber? scheme digits = some n) :
    Numeral.value digits = n ∧ portNumber? scheme (Numeral.write n) = some n := by
  unfold portNumber? at h ⊢
  split_ifs at h with hleft
  obtain ⟨-, hother⟩ := not_or.1 hleft
  cases h
  refine ⟨rfl, ?_⟩
  rw [Numeral.value_write, if_neg (not_or.2 ⟨Numeral.write_ne_nil _, hother⟩)]

/-- The URL as what is read of it is written. -/
@[simps]
def normal : Plain where
  scheme := p.scheme
  host := String.ofList (p.host.toList.map Char.toLower)
  port := p.authority.port.map toString
  segments := p.segments
  isWeb := p.isWeb
  isHost := by
    rw [String.toList_ofList]
    exact p.isHost.lower
  isPort digits h := by
    obtain ⟨n, hn, rfl⟩ := Option.map_eq_some_iff.1 h
    have hvalue := (portNumber?_write hn).1
    rw [Numeral.toList_toString]
    exact ⟨fun c => Numeral.isDigit_of_mem_write,
      by rw [Numeral.value_write, ← hvalue]; exact p.isPort_getD.bounded⟩
  isPath := p.isPath
  isClosed := p.isClosed

theorem authority_normal : p.normal.authority = p.authority := by
  have hport : portNumber? p.scheme ((p.normal.port.map String.toList).getD []) = p.authority.port := by
    rw [normal_port, Option.map_map]
    cases hn : p.authority.port with
    | none => simp [portNumber?]
    | some n =>
      rw [Option.map_some, Function.comp_apply, Numeral.toList_toString, Option.getD_some]
      exact (portNumber?_write hn).2
  rw [authority, normal_scheme, hport, normal_host, String.toList_ofList,
    p.isHost.map_toLower]
  rfl

theorem text_authority : p.authority.text.toList = p.normal.authorityText := by
  unfold authorityText Authority.text
  rw [normal_host, normal_port]
  cases p.authority.port <;> simp [authority, Host.text, portText]

theorem text_url (query : String) :
    (p.url (some query)).text = p.normal.text ++ "?" ++ query := by
  apply String.toList_inj.1
  rw [String.toList_append, String.toList_append, toList_text]
  change (p.scheme ++ ":" ++ ("//" ++ p.authority.text) ++ p.path ++ ("?" ++ query) ++ "").toList = _
  simp [text_authority]

/-- The text of what is read of a plain URL is read as the same. -/
theorem parse_text_url {query : List Char} (hne : p.segments ≠ []) (hquery : IsFormText query) :
    parse (p.url (some (String.ofList query))).text = .ok (p.url (some (String.ofList query))) := by
  have hread := p.normal.parse_text (some query) hne (by simpa using hquery)
  have hurl : p.normal.url (some (String.ofList query)) = p.url (some (String.ofList query)) := by
    unfold url
    rw [authority_normal]
    rfl
  have htext : p.normal.text ++ "?" ++ String.ofList query =
      String.ofList (p.normal.text.toList ++ queryText (some query)) := by
    apply String.toList_inj.1
    simp [queryText]
  rw [text_url, htext, hread, Option.map_some, hurl]

end Plain

end CoverageRun.Url
