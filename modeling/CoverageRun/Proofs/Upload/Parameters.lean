/-
The upload URL. Whatever characters the values of a run hold, the URL that an upload is asked for at
tells exactly these values under their names, at a path that the base URL alone decides; and a server
that reads the text of the URL reads the same.
-/
import CoverageRun.Proofs.Url.Plain
import CoverageRun.Upload.Protocol
import Mathlib.Data.List.ReduceOption

namespace CoverageRun.Upload

open Text

/-! ## The path -/

theorem isPlainSegment_endpoint : ∀ s ∈ ["upload", "v4"], Url.IsPlainSegment s := by decide

variable (base : Url.Plain)

/-- Where uploads are asked for below a base URL. -/
def below : Url.Plain := base.below ["upload", "v4"] isPlainSegment_endpoint (by decide)

theorem path_below : (below base).path = base.path ++ "/upload/v4" := by
  apply String.toList_inj.1
  simp [below, Url.Plain.below, Url.pathText]

theorem text_below : (below base).text = base.text ++ "/upload/v4" := by
  have hpath := path_below base
  unfold Url.Plain.text
  rw [hpath, ← String.append_assoc]
  rfl

theorem dropWhile_slashes {l : List Char} (h : l.getLast? ≠ some '/') (n : Nat) :
    ((l ++ List.replicate n '/').reverse.dropWhile (· == '/')).reverse = l := by
  have hslashes : ∀ c ∈ List.replicate n '/', (c == '/') = true := by simp +contextual
  have hrest : l.reverse.dropWhile (· == '/') = l.reverse := by
    rw [← List.head?_reverse] at h
    cases hl : l.reverse with
    | nil => rfl
    | cons c r =>
      have hc : c ≠ '/' := by simpa [hl] using h
      simp [hc]
  rw [List.reverse_append, List.reverse_replicate, List.dropWhile_append_of_pos hslashes, hrest,
    List.reverse_reverse]

/-- Slashes at the end of the base URL do not count. -/
theorem endpoint_eq {s : Settings} {slashes : Nat}
    (hbase : s.baseUrl = base.text ++ String.ofList (List.replicate slashes '/')) :
    endpoint s = (below base).text := by
  rw [endpoint, hbase, String.toList_append, String.toList_ofList, dropWhile_slashes base.getLast?_text,
    String.ofList_toList, text_below]

/-! ## The parameters -/

theorem reduceOption_cons {α : Type} (o : Option α) (l : List (Option α)) :
    (o :: l).reduceOption = o.toList ++ l.reduceOption := by
  cases o <;> simp

/-- What the service is told: four parameters always, and each of five more if it is known. -/
theorem parameters_eq (s : Settings) (c : Origin) :
    parameters s c = [
      some ("package", "covflow-0.3.1"),
      some ("commit", c.commit),
      some ("build", c.runId),
      some ("service", c.service),
      c.branch.map fun branch => ("branch", branch),
      c.repository.map fun repository => ("slug", repository),
      c.pullRequest.map fun number => ("pr", toString number),
      if s.flags = [] then none else some ("flags", ",".intercalate s.flags),
      s.name.map fun name => ("name", name)].reduceOption := by
  have hversion : "covflow-" ++ version = "covflow-0.3.1" := by decide
  have hnumber : ∀ number : UInt64, toString number.toNat = toString number := fun _ => rfl
  unfold parameters
  simp only [reduceOption_cons, Option.toList_map, joinText_eq_intercalate, hversion, hnumber]
  cases s.flags with
  | nil => simp
  | cons flag more => simp

theorem uploadUrl_eq {s : Settings} {slashes : Nat}
    (hbase : s.baseUrl = base.text ++ String.ofList (List.replicate slashes '/')) (c : Origin) :
    uploadUrl s c =
      .ok ((below base).url (some (String.ofList (Url.formPairs (parameters s c))))) := by
  have hne : (below base).segments ≠ [] := by simp [below, Url.Plain.below]
  have hparse : Url.parse (endpoint s) = .ok ((below base).url none) := by
    have hread := (below base).parse_text none hne (by simp)
    rw [endpoint_eq base hbase]
    simpa [Url.queryText] using hread
  -- there is no query before, and the first four parameters are never missing
  have hpairs : parameters s c ≠ [] := by simp [parameters]
  unfold uploadUrl
  rw [hparse]
  simp only [Url.withPairs, if_neg hpairs]
  rfl

/-- Whatever the values are, the URL tells exactly these under their names, in order, at a path that
the base URL alone decides; and its text is read as the same. -/
theorem uploadUrl_parameters {s : Settings} {slashes : Nat}
    (hbase : s.baseUrl = base.text ++ String.ofList (List.replicate slashes '/')) (c : Origin) :
    ∃ url, uploadUrl s c = .ok url ∧
      url.scheme = base.scheme ∧ url.authority = some base.authority ∧
      url.path = base.path ++ "/upload/v4" ∧ url.fragment = none ∧
      url.pairs = [
        some ("package", "covflow-0.3.1"),
        some ("commit", c.commit),
        some ("build", c.runId),
        some ("service", c.service),
        c.branch.map fun branch => ("branch", branch),
        c.repository.map fun repository => ("slug", repository),
        c.pullRequest.map fun number => ("pr", toString number),
        if s.flags = [] then none else some ("flags", ",".intercalate s.flags),
        s.name.map fun name => ("name", name)].reduceOption ∧
      Url.parse url.text = .ok url := by
  have hne : (below base).segments ≠ [] := by simp [below, Url.Plain.below]
  refine ⟨_, uploadUrl_eq base hbase c, rfl, rfl, path_below base, rfl, ?_,
    (below base).parse_text_url hne (Url.isFormText_formPairs _)⟩
  rw [← parameters_eq]
  simp [Url.pairs, Url.Plain.url]

/-- A base URL with capitals, a port and an empty segment. -/
def mixedBase : Url.Plain where
  scheme := "https"
  host := "Codecov.Example"
  port := some "08443"
  segments := ["team_1", "", "~in-house"]
  isWeb := .inr rfl
  isHost := by decide
  isPort := by decide
  isPath := by decide
  isClosed := by decide

/-- A run whose author chose a branch that looks like parameters. -/
def forgingOrigin : Origin where
  repository := none
  commit := "abc123"
  branch := some "fix&commit=0&slug=own/er+100%25 é#top"
  runId := "77\n&"
  pullRequest := some 5
  service := "github-actions"

theorem uploadUrl_parameters_forging :
    "https://Codecov.Example:08443/team_1//~in-house//" =
        mixedBase.text ++ String.ofList (List.replicate 2 '/') ∧
      ∃ url, uploadUrl
          { Settings.standard with
            baseUrl := "https://Codecov.Example:08443/team_1//~in-house//"
            flags := ["unit", "a=b&c"] } forgingOrigin = .ok url ∧
        url.path = "/team_1//~in-house/upload/v4" ∧
        url.pairs = [("package", "covflow-0.3.1"), ("commit", "abc123"), ("build", "77\n&"),
          ("service", "github-actions"), ("branch", "fix&commit=0&slug=own/er+100%25 é#top"),
          ("pr", "5"), ("flags", "unit,a=b&c")] := by
  have hbase : "https://Codecov.Example:08443/team_1//~in-house//" =
      mixedBase.text ++ String.ofList (List.replicate 2 '/') := by decide
  obtain ⟨url, hurl, -, -, hpath, -, hpairs, -⟩ := uploadUrl_parameters mixedBase (s :=
    { Settings.standard with
      baseUrl := "https://Codecov.Example:08443/team_1//~in-house//"
      flags := ["unit", "a=b&c"] }) hbase forgingOrigin
  refine ⟨hbase, url, hurl, hpath.trans (by decide), hpairs.trans (by decide)⟩

end CoverageRun.Upload
