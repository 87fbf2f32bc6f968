import InstanceConsole.Client.Basic
import InstanceConsole.Proofs.Web.UrlPaths
import Mathlib.Control.Monad.Basic

/-!
# The URLs of the backend

The client makes the path of its base end in a slash, so that the resources of the backend come to
stand below it, and does so for every base that it accepts. Among these are URLs whose path is no
hierarchy, such as a host and a port without a scheme; nothing can stand below them, and every
request of such a client fails, `resource_urls`. All of this holds whatever domain names are mapped
to, so nothing is asked of the mapping.
-/

set_option autoImplicit false

namespace InstanceConsole

namespace Url

/-- A URL below a base, with a query of its own. -/
structure IsBelow (u base : Url) (relative : String) (query : Option String) : Prop where
  scheme : u.scheme = base.scheme
  username : u.username = base.username
  password : u.password = base.password
  host : u.host = base.host
  port : u.port = base.port
  pathText : u.pathText = slashed base.pathText ++ relative
  query : u.query = query
  fragment : u.fragment = none

variable {base : Url} {list : List String}

theorem join_withTrailingSlash_of_segments (hpath : base.path = .segments list)
    (h : ∀ s ∈ list, IsSegment s) (first : String) (rest : List String) :
    ∃ u, base.withTrailingSlash.join (first :: rest) = .ok u ∧
      u.IsBelow base (first ++ segmentsText rest) none := by
  obtain ⟨front, hslashed, htext⟩ := withTrailingSlash_of_segments hpath h
  rw [hslashed]
  refine ⟨_, rfl, rfl, rfl, rfl, rfl, rfl, ?_, rfl, rfl⟩
  -- The empty segment at the end makes room for the first one.
  rw [← htext, pathText_of_segments rfl, List.dropLast_concat, segmentsText_append,
    segmentsText_cons]
  simp only [String.append_assoc]

theorem join_withTrailingSlash_of_rigid {text : String} (hpath : base.path = .rigid text)
    (relative : List String) :
    base.withTrailingSlash.join relative = .error .relativeToRigidBase := by
  have hrigid : ∃ longer, base.withTrailingSlash.path = .rigid longer := by
    simp only [withTrailingSlash, hpath]
    split
    · exact ⟨_, rfl⟩
    · split
      · exact ⟨text, hpath⟩
      · exact ⟨_, rfl⟩
  obtain ⟨longer, hlonger⟩ := hrigid
  rw [join, hlonger]

end Url

namespace Client

variable {domains : DomainMapping} {baseUrl : String} {c : Client}

theorem base_of_ofText (h : Client.ofText domains baseUrl = .ok c) :
    ∃ base, Url.parse domains baseUrl = .ok base ∧ c.base = base.withTrailingSlash := by
  unfold Client.ofText at h
  split at h
  next base hbase =>
    obtain rfl := Except.ok.inj h
    exact ⟨base, hbase, rfl⟩
  · cases h

/-- **The URLs that a client asks.** Take any mapping of domain names, any text that a client
accepts with it as its base URL, and any page size. If the path of that URL is a list of segments,
as it is in every special scheme, both URLs are there. They have the scheme, the credentials, the
host and the port of the base, and their paths are that of the base, with a slash at its end, and
the resource after it. The query asks for the first page where instances are fetched, and is empty
where they are counted; there is no fragment. If the path is no hierarchy, neither URL can be
built. -/
theorem resource_urls (h : Client.ofText domains baseUrl = .ok c) (pageSize : UInt32) :
    ∃ base, Url.parse domains baseUrl = .ok base ∧
      let client : Client := { c with pageSize }
      (∀ list, base.path = .segments list → ∃ count selection,
        client.countUrl = .ok count ∧ client.selectionUrl = .ok selection ∧
        count.IsBelow base "api/workflow-instances/count" none ∧
        selection.IsBelow base "api/workflow-instances"
          (some ("firstResult=0&maxResults=" ++ Numeral.text pageSize.toNat))) ∧
      (∀ text, base.path = .rigid text →
        Url.isSpecial base.scheme = false ∧
        client.countUrl = .error (.invalidUrl .relativeToRigidBase) ∧
        client.selectionUrl = .error (.invalidUrl .relativeToRigidBase)) := by
  obtain ⟨base, hparse, hbase⟩ := base_of_ofText h
  refine ⟨base, hparse, ?_, ?_⟩
  · intro list hpath
    have hsegments : ∀ s ∈ list, Url.IsSegment s := by
      obtain ⟨-, text, hrigid⟩ | ⟨parsed, hparsed, hsegments⟩ := Url.pathParsed_of_parse hparse
      · rw [hpath] at hrigid
        cases hrigid
      · rw [hpath] at hparsed
        cases hparsed
        exact hsegments
    obtain ⟨count, hcount, hbelow⟩ := Url.join_withTrailingSlash_of_segments hpath hsegments
      "api" ["workflow-instances", "count"]
    obtain ⟨selection, hselection, hfirst⟩ := Url.join_withTrailingSlash_of_segments hpath hsegments
      "api" ["workflow-instances"]
    refine ⟨count, { selection with query := some (firstPage pageSize) }, ?_, ?_, hbelow, ?_⟩
    · simp only [countUrl, resource, hbase, hcount]
    · simp only [selectionUrl, resource, hbase, hselection]
      rfl
    · exact { hfirst with query := rfl }
  · intro text hpath
    refine ⟨?_, ?_, ?_⟩
    · obtain ⟨hspecial, -⟩ | ⟨list, hlist, -⟩ := Url.pathParsed_of_parse hparse
      · exact hspecial
      · rw [hpath] at hlist
        cases hlist
    · simp only [countUrl, resource, hbase, Url.join_withTrailingSlash_of_rigid hpath]
    · simp only [selectionUrl, resource, hbase, Url.join_withTrailingSlash_of_rigid hpath]
      rfl

/-- A base with a path that does not end in a slash. -/
theorem resource_urls_below_path :
    let baseUrl := "https://example.com/operate"
    let domains := Domain.plainMapping
    ∃ c base count selection, Client.ofText domains baseUrl = .ok c ∧
      Url.parse domains baseUrl = .ok base ∧
      { c with pageSize := 50 }.countUrl = .ok count ∧
      { c with pageSize := 50 }.selectionUrl = .ok selection ∧
      count.IsBelow base "api/workflow-instances/count" none ∧
      selection.IsBelow base "api/workflow-instances" (some "firstResult=0&maxResults=50") := by
  intro baseUrl domains
  have hbase : Url.parse domains baseUrl = .ok
      { scheme := "https", host := some (.name "example.com"), path := .segments ["operate"] } := by
    decide +kernel
  have hclient : Client.ofText domains baseUrl = .ok
      { base := { scheme := "https", host := some (.name "example.com"),
                  path := .segments ["operate", ""] } } := by
    decide +kernel
  obtain ⟨base, hparse, hbelow, -⟩ := resource_urls hclient 50
  obtain rfl := Except.ok.inj (hbase.symm.trans hparse)
  obtain ⟨count, selection, hcount, hselection, hcounted, hselected⟩ := hbelow _ rfl
  have hpage : Numeral.text (50 : UInt32).toNat = "50" := by decide +kernel
  rw [hpage] at hselected
  exact ⟨_, _, count, selection, hclient, hparse, hcount, hselection, hcounted, hselected⟩

/-- A host and a port without a scheme are a URL, whose scheme is the host, and a client accepts
it; then neither URL can be built. -/
theorem resource_urls_of_bare_host :
    ∃ c, Client.ofText Domain.plainMapping "localhost:8080" = .ok c ∧
      c.countUrl = .error (.invalidUrl .relativeToRigidBase) ∧
      c.selectionUrl = .error (.invalidUrl .relativeToRigidBase) := by
  refine ⟨{ base := { scheme := "localhost", host := none, path := .rigid "8080/" } }, ?_, ?_, ?_⟩
  · decide +kernel
  · decide +kernel
  · decide +kernel

end Client

end InstanceConsole
