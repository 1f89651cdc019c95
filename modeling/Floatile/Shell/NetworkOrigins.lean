import Floatile.Lib.Origin
import Floatile.Lib.Version
import Floatile.Services.Mediation
import Floatile.Shell.ManifestGrants

/-! The origins of network grants: when a declared origin is the origin that requests have at run
time. The parser of URLs comes from an external package and is a parameter. -/
namespace Floatile.Shell.NetworkOrigins

open Floatile.Lib
open Floatile.Lib.Origin
open Floatile.Core
open Floatile.Core.Capability
open Floatile.Core.Authority
open Floatile.Core.Distribution (parsedPermission)
open Floatile.Services
open Floatile.Lib.Version

/-- The host of a parsed URL. -/
inductive UrlHost where
  | domain (name : String)
  | ipv4 (address : ℕ)
  | ipv6 (address : ℕ)
  deriving DecidableEq, Repr

/-- What follows the origin in the text of a URL: nothing, a path or a query. -/
def UrlTail (tail : String) : Prop :=
  ∀ c, tail.toList.head? = some c → c = '/' ∨ c = '?'

section Library

variable {υ : Type} (lib : HttpLibrary υ) (host : υ → UrlHost)

/-- The parser follows the URL standard: a domain in its normal form and a kept port are read
back, a parsed domain is in its normal form, and a query does not change the origin. -/
structure WhatwgUrls (toAscii : String → Option String) : Prop where
  parse_origin : ∀ domain port tail, IsDomain toAscii domain → KeptPort port → UrlTail tail →
    ∃ url, lib.parse (originText domain port ++ tail) = some url ∧
      host url = .domain domain ∧ lib.origin url = originText domain port
  origin_parse : ∀ text url domain, Text.startsWith text "https://" = true →
    lib.parse text = some url → host url = .domain domain →
    ∃ port, IsDomain toAscii domain ∧ KeptPort port ∧ lib.origin url = originText domain port
  origin_appendPairs : ∀ url pairs, lib.origin (lib.appendPairs url pairs) = lib.origin url

/-- The text is the serialization of its own origin, and the origin names a host of the
network. -/
structure Canonical (origin : String) : Prop where
  parsed : ∃ url domain, lib.parse origin = some url ∧ lib.origin url = origin ∧
    host url = .domain domain ∧ NamesHost domain
  noUserinfo : '@' ∉ origin.toList
  noDefaultPort : Text.endsWith origin ":443" = false
  noUpper : ∀ c ∈ origin.toList, c.isUpper = false

end Library

/-- The network grant that is derived from a manifest. -/
def networkGrant (manifest : Manifest) : Option Grant :=
  findGrant ((declaredEntries manifest).map entryGrant) .networkHttps

def entryOrigins : CapabilityId × Option CapabilityParams → List String
  | (.networkHttps,some (.network origins _ _ _)) => origins
  | _ => []

/-- The origins that a manifest declares. -/
def declaredOrigins (manifest : Manifest) : List String :=
  (declaredEntries manifest).flatMap entryOrigins

/-- Every template has a URL, and the broker allows what is prepared for it. -/
structure TemplatesUsable {υ : Type} (lib : HttpLibrary υ) (manifest : Manifest) : Prop where
  parsed : ∀ t ∈ manifest.httpTemplates, ∃ url, lib.parse t.url = some url
  decided : ∀ connections vault templateId connectionId query prepared,
    ((HttpsService.new manifest.httpTemplates connections).prepare lib vault templateId
      connectionId query).result = .ok prepared →
    Capability.decide (networkGrant manifest) (some prepared.requestParams) = .allowed

theorem networkGrant_of_manifestGrants {id : PluginId} {inst : InstanceId} {manifest : Manifest}
    {ig : InstanceGrant} (hvalid : ∀ d ∈ manifest.permissions, validatePermission d = .ok ())
    (h : manifestGrants id manifest inst = .ok ig) :
    findGrant ig.caps .networkHttps = networkGrant manifest := by
  obtain ⟨-,rfl⟩ := (manifestGrants_eq_ok_iff hvalid ig).mp h
  rfl

theorem startsWith_of_validateHttpsOrigin {origin : String}
    (h : validateHttpsOrigin origin = .ok ()) : Text.startsWith origin "https://" = true := by
  simp only [validateHttpsOrigin, Checked.ite_error_eq_ok, Bool.or_eq_true, not_or,
    Bool.not_eq_true', Bool.not_eq_false] at h
  exact h.1.1.1.1.1.1.1.1

/-- What holds of the fields while the parameters are read. -/
structure FieldsOk (fields : NetworkFields) : Prop where
  rate : 1 ≤ fields.maxRequestsPerMinute
  origins : ∀ o ∈ fields.origins, validateHttpsOrigin o = .ok ()

theorem parseOrigin_preserves {c : CapabilityId} {origins origins' : List String} {value : Json}
    (h : parseOrigin c origins value = .ok origins')
    (horigins : ∀ o ∈ origins, validateHttpsOrigin o = .ok ()) :
    ∀ o ∈ origins', validateHttpsOrigin o = .ok () := by
  obtain ⟨origin,-,h⟩ := Checked.bind_eq_ok.mp h
  obtain ⟨hvalid,h⟩ := Checked.check_bind_eq_ok.mp h
  obtain ⟨-,h⟩ := (Checked.ite_error_eq_ok ..).mp h
  cases h
  intro o ho
  rcases List.mem_append.mp ho with hold | hnew
  · exact horigins o hold
  · obtain rfl := List.mem_singleton.mp hnew
    exact hvalid

theorem parseNetworkField_preserves {c : CapabilityId} {fields fields' : NetworkFields}
    {field : String × Json} (h : parseNetworkField c fields field = .ok fields')
    (hfields : FieldsOk fields) : FieldsOk fields' := by
  unfold parseNetworkField at h
  split at h
  · -- the list of origins
    obtain ⟨values,-,h⟩ := Checked.bind_eq_ok.mp h
    obtain ⟨-,h⟩ := (Checked.ite_error_eq_ok ..).mp h
    obtain ⟨origins,horigins,h⟩ := Checked.bind_eq_ok.mp h
    cases h
    exact ⟨hfields.rate,Checked.foldlM_preserves
      (fun _ _ _ hstep hbefore => parseOrigin_preserves hstep hbefore) horigins hfields.origins⟩
  · obtain ⟨n,hn,h⟩ := Checked.bind_eq_ok.mp h
    cases h
    obtain ⟨m,-,hn⟩ := Checked.bind_eq_ok.mp hn
    split_ifs at hn with hrange
    · cases hn
      exact ⟨hrange.1,hfields.origins⟩
    · cases hn
  · obtain ⟨n,-,h⟩ := Checked.bind_eq_ok.mp h
    cases h
    exact ⟨hfields.rate,hfields.origins⟩
  · obtain ⟨n,-,h⟩ := Checked.bind_eq_ok.mp h
    cases h
    exact ⟨hfields.rate,hfields.origins⟩
  · cases h

/-- Accepted network parameters allow requests, and their origins have passed the check. -/
theorem network_of_parse {json : Option Json} {params : Option CapabilityParams}
    (h : parseCapabilityParams .networkHttps json = .ok params) :
    ∃ origins rate bytes timeout, params = some (.network origins rate bytes timeout) ∧
      1 ≤ rate ∧ ∀ o ∈ origins, validateHttpsOrigin o = .ok () := by
  cases json with
  | none => cases h
  | some json =>
    obtain ⟨obj,-,h⟩ := Checked.bind_eq_ok.mp h
    obtain ⟨fields,hfields,h⟩ := Checked.bind_eq_ok.mp h
    obtain ⟨-,h⟩ := (Checked.ite_error_eq_ok ..).mp h
    cases h
    have hstart : FieldsOk ⟨[],30,256 * 1024,10000⟩ := ⟨by decide,by simp⟩
    have hok := Checked.foldlM_preserves
      (fun _ _ _ hstep hbefore => parseNetworkField_preserves hstep hbefore) hfields hstart
    exact ⟨_,_,_,_,rfl,hok.rate,hok.origins⟩

theorem name_of_fromName {name : String} {c : CapabilityId}
    (h : CapabilityId.fromName name = some c) : c.name = name := by
  obtain ⟨d,hd,rfl⟩ := Option.map_eq_some_iff.mp h
  obtain ⟨c,-,rfl⟩ := List.mem_map.mp (List.mem_of_find?_eq_some hd)
  have hname : c.definition.name = name := by simpa using List.find?_some hd
  rw [CapabilityId.definition_id]
  exact hname

theorem parsedPermission_eq_ok {decl : PermissionDecl} {c : CapabilityId}
    {params : Option CapabilityParams} (h : parsedPermission decl = .ok (c,params)) :
    c.name = decl.capability ∧ parseCapabilityParams c decl.params = .ok params := by
  unfold parsedPermission at h
  cases hc : CapabilityId.fromName decl.capability with
  | none => simp [hc] at h
  | some c' =>
    cases hp : parseCapabilityParams c' decl.params with
    | error e => simp [hc, hp] at h
    | ok params' =>
      simp only [hc, hp] at h
      cases h
      exact ⟨name_of_fromName hc,hp⟩

/-- Every declared origin has passed the check of origins. -/
theorem startsWith_of_declared {manifest : Manifest} {origin : String}
    (h : origin ∈ declaredOrigins manifest) : Text.startsWith origin "https://" = true := by
  obtain ⟨e,he,horigin⟩ := List.mem_flatMap.mp h
  obtain ⟨decl,-,hparsed⟩ := List.mem_filterMap.mp he
  unfold entryOrigins at horigin
  split at horigin
  · obtain ⟨-,hparams⟩ := parsedPermission_eq_ok (Checked.toOption_eq_some.mp hparsed)
    obtain ⟨_,_,_,_,heq,-,hvalid⟩ := network_of_parse hparams
    cases heq
    exact startsWith_of_validateHttpsOrigin (hvalid origin horigin)
  · cases horigin

/-- The first declaration of a capability in the list of permissions is the first entry. -/
theorem firstEntry {decls : List PermissionDecl}
    (hvalid : ∀ d ∈ decls, validatePermission d = .ok ()) {c : CapabilityId}
    {decl : PermissionDecl} {params : Option CapabilityParams}
    (hfind : decls.find? (fun d => d.capability = c.name) = some decl)
    (hparams : parseCapabilityParams c decl.params = .ok params) :
    (decls.filterMap (fun d => (parsedPermission d).toOption)).find? (fun e => e.1 = c) =
      some (c,params) := by
  induction decls with
  | nil => cases hfind
  | cons d ds ih =>
    obtain ⟨hd,hds⟩ := List.forall_mem_cons.mp hvalid
    obtain ⟨c',params',hparsed,-,-⟩ := parsedPermission_of_validatePermission hd
    obtain ⟨hname,hparams'⟩ := parsedPermission_eq_ok hparsed
    rw [List.filterMap_cons_some (b := (c',params')) (by simp [hparsed])]
    by_cases hc : c' = c
    · subst hc
      have hhead : d = decl := by simpa [hname] using hfind
      subst hhead
      rw [hparams] at hparams'
      cases hparams'
      simp
    · have hne : d.capability ≠ c.name := by
        intro heq
        have hsame := CapabilityId.fromName_name c
        rw [← heq, ← hname, CapabilityId.fromName_name] at hsame
        exact hc (Option.some.inj hsame)
      rw [List.find?_cons_of_neg (by simpa using hne)] at hfind
      rw [List.find?_cons_of_neg (by simpa using hc)]
      exact ih hds hfind

/-- The budget of the templates is the grant that the runtime derives. -/
theorem networkGrant_of_budget {manifest : Manifest} {budget : NetworkBudget}
    (hvalid : ∀ d ∈ manifest.permissions, validatePermission d = .ok ())
    (h : networkBudget manifest = .ok (some budget)) :
    ∃ rate, 1 ≤ rate ∧ networkGrant manifest = some (entryGrant (.networkHttps,
      some (.network budget.origins rate budget.maxResponseBytes budget.maxTimeoutMs))) := by
  unfold networkBudget at h
  cases hfind : manifest.permissions.find? (fun p => p.capability = "network:https") with
  | none => simp [hfind] at h
  | some permission =>
    cases hparams : parseCapabilityParams .networkHttps permission.params with
    | error e => simp [hfind, hparams] at h
    | ok params =>
      obtain ⟨origins,rate,bytes,timeout,rfl,hrate,-⟩ := network_of_parse hparams
      simp only [hfind, hparams, Except.ok.injEq, Option.some.injEq] at h
      subst h
      refine ⟨rate,hrate,?_⟩
      rw [networkGrant, findGrant_map_entryGrant, declaredEntries,
        firstEntry (c := .networkHttps) hvalid hfind hparams]
      rfl

theorem httpsUrlOrigin_eq_some {url origin : String} (h : httpsUrlOrigin url = some origin) :
    ∃ tail, UrlTail tail ∧ url = origin ++ tail := by
  obtain ⟨rest,hrest,h⟩ := Option.bind_eq_some_iff.mp h
  obtain rfl := Text.stripPrefix_eq_some_iff.mp hrest
  dsimp only at h
  split_ifs at h
  obtain rfl := Option.some.inj h
  refine ⟨String.ofList (rest.toList.dropWhile (fun c => c != '/' && c != '?')),?_,?_⟩
  · intro c hc
    have hstop := List.head?_dropWhile_not (fun c => c != '/' && c != '?') rest.toList
    rw [String.toList_ofList] at hc
    rw [hc] at hstop
    by_cases hslash : c = '/'
    · exact Or.inl hslash
    · exact Or.inr (by simpa [hslash] using hstop)
  · rw [String.ext_iff]
    simp [List.takeWhile_append_dropWhile]

theorem template_of_validate {network : Option NetworkBudget} {ids ids' : List String}
    {template : HttpTemplateDecl} (h : validateHttpTemplate network ids template = .ok ids') :
    ∃ origin budget, httpsUrlOrigin template.url = some origin ∧ network = some budget ∧
      exceedsBudget template origin budget = false := by
  unfold validateHttpTemplate at h
  obtain ⟨-,h⟩ := (Checked.ite_error_eq_ok ..).mp h
  obtain ⟨-,h⟩ := (Checked.ite_error_eq_ok ..).mp h
  cases horigin : httpsUrlOrigin template.url with
  | none => simp [horigin] at h
  | some origin =>
    cases network with
    | none => simp [horigin] at h
    | some budget =>
      simp only [horigin] at h
      obtain ⟨hbudget,-⟩ := (Checked.ite_error_eq_ok ..).mp h
      exact ⟨origin,budget,rfl,rfl,Bool.not_eq_true _ ▸ hbudget⟩

/-- The URL of a valid template begins with an origin of the grant, whose limits it keeps. -/
theorem template_of_validateManifest {Version : Type}
    {parseVersion : String → Except String Version} {manifest : Manifest}
    (h : validateManifest parseVersion manifest = .ok ())
    {template : HttpTemplateDecl} (htemplate : template ∈ manifest.httpTemplates) :
    ∃ origin tail budget, networkBudget manifest = .ok (some budget) ∧ UrlTail tail ∧
      template.url = origin ++ tail ∧ origin ∈ budget.origins ∧
      template.maxResponseBytes ≤ budget.maxResponseBytes ∧
      template.timeoutMs ≤ budget.maxTimeoutMs := by
  simp only [validateManifest, Checked.bind_eq_ok] at h
  obtain ⟨_,-,_,-,_,-,_,-,_,-,_,-,_,-,_,-,_,-,_,-,_,-,_,-,_,-,htemplates⟩ := h
  obtain ⟨-,htemplates⟩ := Checked.check_bind_eq_ok.mp htemplates
  obtain ⟨network,hnetwork,htemplates⟩ := Checked.bind_eq_ok.mp htemplates
  obtain ⟨ids,hloop,-⟩ := Checked.bind_eq_ok.mp htemplates
  obtain ⟨_,_,hstep⟩ := Checked.exists_of_mem_foldlM hloop htemplate
  obtain ⟨origin,budget,horigin,rfl,hbudget⟩ := template_of_validate hstep
  obtain ⟨tail,htail,hurl⟩ := httpsUrlOrigin_eq_some horigin
  simp only [exceedsBudget, Bool.or_eq_false_iff, Bool.not_eq_false', decide_eq_false_iff_not,
    not_lt, List.contains_iff_mem] at hbudget
  exact ⟨origin,tail,budget,hnetwork,htail,hurl,hbudget.1.1.1.1.1.1.1.1,hbudget.1.1.1.1.1.1.2,
    hbudget.1.1.1.1.2⟩

section Origins

variable {υ : Type} {lib : HttpLibrary υ} {host : υ → UrlHost} {toAscii : String → Option String}

/-- A text with the scheme is canonical exactly when it is an origin in its normal form. -/
theorem canonical_iff_normal (urls : WhatwgUrls lib host toAscii) {origin : String}
    (hscheme : Text.startsWith origin "https://" = true) :
    Canonical lib host origin ↔ Normal toAscii origin := by
  constructor
  · rintro ⟨⟨url,domain,hparse,horigin,hhost,hnames⟩,-,-,-⟩
    obtain ⟨port,hdomain,hport,htext⟩ := urls.origin_parse origin url domain hscheme hparse hhost
    exact ⟨domain,port,horigin.symm.trans htext,hdomain,hnames,hport⟩
  · rintro ⟨domain,port,rfl,hdomain,hnames,hport⟩
    obtain ⟨url,hparse,hhost,horigin⟩ :=
      urls.parse_origin domain port "" hdomain hport (by simp [UrlTail])
    rw [String.append_empty] at hparse
    exact ⟨⟨url,domain,hparse,horigin,hhost,hnames⟩,at_notMem_originText hdomain,
      endsWith_defaultPort hdomain hport,isUpper_originText hdomain⟩

/-- A valid template whose origin is in its normal form is requested at this origin. -/
theorem origin_of_normal (urls : WhatwgUrls lib host toAscii) {origin tail : String}
    (hnormal : Normal toAscii origin) (htail : UrlTail tail) :
    ∃ url, lib.parse (origin ++ tail) = some url ∧ lib.origin url = origin := by
  obtain ⟨domain,port,rfl,hdomain,-,hport⟩ := hnormal
  obtain ⟨url,hparse,-,horigin⟩ := urls.parse_origin domain port tail hdomain hport htail
  exact ⟨url,hparse,horigin⟩

theorem templatesUsable_of_normal (urls : WhatwgUrls lib host toAscii) {Version : Type}
    {parseVersion : String → Except String Version} {manifest : Manifest}
    (hvalid : validateManifest parseVersion manifest = .ok ())
    (hnormal : ∀ o ∈ declaredOrigins manifest, Normal toAscii o) :
    TemplatesUsable lib manifest := by
  have hpermissions := validatePermission_of_validateManifest hvalid
  -- the URL of every template parses to an origin of the grant
  have htemplates : ∀ t ∈ manifest.httpTemplates, ∃ url, lib.parse t.url = some url ∧
      Allows (networkGrant manifest) (some (.network [lib.origin url] 1 t.maxResponseBytes
        t.timeoutMs)) := by
    intro t ht
    obtain ⟨origin,tail,budget,hbudget,htail,hurl,hmem,hbytes,htimeout⟩ :=
      template_of_validateManifest hvalid ht
    obtain ⟨rate,hrate,hgrant⟩ := networkGrant_of_budget hpermissions hbudget
    have hdeclared : origin ∈ declaredOrigins manifest := by
      obtain ⟨e,he,hentry⟩ := List.mem_map.mp (mem_of_findGrant hgrant)
      have heq : e = (.networkHttps,some (.network budget.origins rate budget.maxResponseBytes
          budget.maxTimeoutMs)) := by
        simpa [entryGrant, Prod.ext_iff] using hentry
      subst heq
      exact List.mem_flatMap.mpr ⟨_,he,hmem⟩
    obtain ⟨url,hparse,horigin⟩ := origin_of_normal urls (hnormal origin hdeclared) htail
    refine ⟨url,hurl ▸ hparse,?_⟩
    rw [hgrant, allows_some_iff, horigin]
    exact ⟨by simpa using hmem,hrate,hbytes,htimeout⟩
  refine ⟨fun t ht => (htemplates t ht).imp fun _ h => h.1,?_⟩
  intro connections vault templateId connectionId query prepared hprepared
  obtain ⟨draft,_,_,hdraft,-,-,hready⟩ := HttpsService.prepare_eq_ok hprepared
  obtain ⟨htemplate,-,-,url,hparse,happend⟩ := HttpsService.draft_eq_ok hdraft
  obtain ⟨-,hparams,-⟩ := HttpDraft.prepared_eq_ok hready
  have hmem : draft.template ∈ manifest.httpTemplates := by
    obtain ⟨t,ht,heq⟩ := List.mem_map.mp (OrdMap.mem_of_get_ofList htemplate)
    cases heq
    exact ht
  obtain ⟨url',hparse',hallows⟩ := htemplates draft.template hmem
  rw [hparse] at hparse'
  obtain rfl := Option.some.inj hparse'
  rw [hparams, happend, urls.origin_appendPairs]
  exact hallows

/-- Accepted origins are canonical, and the templates of accepted manifests usable, exactly when
the origins are in their normal form. -/
theorem origins_canonical_iff (urls : WhatwgUrls lib host toAscii) :
    (∀ json origins rate bytes timeout,
      parseCapabilityParams .networkHttps json = .ok (some (.network origins rate bytes timeout)) →
      ((∀ o ∈ origins, Canonical lib host o) ↔ ∀ o ∈ origins, Normal toAscii o)) ∧
    ∀ (Version : Type) (parseVersion : String → Except String Version) manifest,
      validateManifest parseVersion manifest = .ok () →
      ((∀ o ∈ declaredOrigins manifest, Canonical lib host o) ∧ TemplatesUsable lib manifest ↔
        ∀ o ∈ declaredOrigins manifest, Normal toAscii o) := by
  constructor
  · intro json origins rate bytes timeout hparse
    obtain ⟨_,_,_,_,heq,-,hvalid⟩ := network_of_parse hparse
    cases heq
    exact forall₂_congr fun o ho =>
      canonical_iff_normal urls (startsWith_of_validateHttpsOrigin (hvalid o ho))
  · intro Version parseVersion manifest hvalid
    have hiff : (∀ o ∈ declaredOrigins manifest, Canonical lib host o) ↔
        ∀ o ∈ declaredOrigins manifest, Normal toAscii o :=
      forall₂_congr fun o ho => canonical_iff_normal urls (startsWith_of_declared ho)
    rw [hiff]
    exact and_iff_left_of_imp (templatesUsable_of_normal urls hvalid)

end Origins

/-- A parsed URL; the path and the query are kept as they stand. -/
structure AsciiUrl where
  domain : String
  port : Option ℕ
  tail : List Char

/-- The normal form of a domain name without international characters. -/
def asciiDomain (name : String) : Option String :=
  if name.toList.all (fun c => c.toNat < 0x80) then
    some (String.ofList (name.toList.map Char.toLower))
  else none

def validDomain (domain : String) : Bool :=
  domain.toList.all domainChar && !domain.toList.isEmpty && !endsInNumber domain

/-- The port after a host, with its colon. -/
def asciiPort : List Char → Option (Option ℕ)
  | [] => some none
  | [_] => some none
  | _ :: digits => do
    let n ← (Text.parseDigits digits).map Int.toNat
    if n < 2^16 then some (if n = 443 then none else some n) else none

def parseAscii (text : String) : Option AsciiUrl := do
  let rest ← Text.stripPrefix text "https://"
  let authority := rest.toList.takeWhile (fun c => c != '/' && c != '?')
  let domain ← asciiDomain (String.ofList (authority.takeWhile (· != ':')))
  let port ← asciiPort (authority.dropWhile (· != ':'))
  if validDomain domain then some ⟨domain,port,rest.toList.drop authority.length⟩ else none

def asciiUrls : HttpLibrary AsciiUrl where
  parse := parseAscii
  appendPairs url pairs :=
    let query := String.intercalate "&" (pairs.map (fun p => p.1 ++ "=" ++ p.2))
    { url with tail := url.tail ++ '?' :: query.toList }
  origin url := originText url.domain url.port
  serialize url := originText url.domain url.port ++ String.ofList url.tail
  headerName := some
  headerValue := some

def asciiHost (url : AsciiUrl) : UrlHost := .domain url.domain

theorem toNat_lt_of_domainChar {c : Char} (h : domainChar c = true) : c.toNat < 0x80 := by
  simp only [domainChar, Bool.and_eq_true, decide_eq_true_eq] at h
  omega

theorem toLower_of_domainChar {c : Char} (h : domainChar c = true) : c.toLower = c := by
  have hupper : ¬('A'.val ≤ c.val ∧ c.val ≤ 'Z'.val) :=
    of_decide_eq_false (isUpper_of_domainChar h)
  unfold Char.toLower
  exact dif_neg hupper

theorem asciiDomain_of_chars {domain : String} (h : ∀ c ∈ domain.toList, domainChar c = true) :
    asciiDomain domain = some domain := by
  have hascii : domain.toList.all (fun c => c.toNat < 0x80) = true := by
    rw [List.all_eq_true]
    exact fun c hc => decide_eq_true (toNat_lt_of_domainChar (h c hc))
  have hlower : domain.toList.map Char.toLower = domain.toList := by
    conv_rhs => rw [← List.map_id domain.toList]
    exact List.map_congr_left fun c hc => toLower_of_domainChar (h c hc)
  rw [asciiDomain, if_pos hascii, hlower, String.ofList_toList]

theorem isDomain_iff {domain : String} :
    IsDomain asciiDomain domain ↔ validDomain domain = true := by
  simp only [validDomain, Bool.and_eq_true, List.all_eq_true, Bool.not_eq_true',
    List.isEmpty_eq_false_iff]
  constructor
  · intro h
    refine ⟨⟨h.chars,fun hnil => h.nonempty ?_⟩,h.named⟩
    rw [String.ext_iff, hnil]
    rfl
  · rintro ⟨⟨hchars,hne⟩,hnamed⟩
    refine ⟨asciiDomain_of_chars hchars,hchars,?_,hnamed⟩
    rintro rfl
    exact hne rfl

theorem asciiPort_portText {port : Option ℕ} (h : KeptPort port) :
    asciiPort (portText port).toList = some port := by
  cases port with
  | none => rfl
  | some n =>
    obtain ⟨hlt,hne⟩ := h n rfl
    rw [toList_portText]
    unfold asciiPort
    split
    · rename_i heq
      cases heq
    · rename_i heq
      exact absurd (List.cons.inj heq).2 Nat.toDigits_ne_nil
    · rename_i heq
      obtain ⟨-,rfl⟩ := List.cons.inj heq
      rw [Text.parseDigits_toDigits, Option.map_some, Int.toNat_natCast, Option.bind_eq_bind,
        Option.bind_some, if_pos hlt, if_neg hne]

theorem keptPort_of_asciiPort {digits : List Char} {port : Option ℕ}
    (h : asciiPort digits = some port) : KeptPort port := by
  unfold asciiPort at h
  split at h
  · cases h
    exact fun n hn => by cases hn
  · cases h
    exact fun n hn => by cases hn
  · obtain ⟨n,-,h⟩ := Option.bind_eq_some_iff.mp h
    split_ifs at h with hlt hdefault
    · cases h
      exact fun n hn => by cases hn
    · obtain rfl := Option.some.inj h
      intro m hm
      obtain rfl := Option.some.inj hm
      omega

theorem authority_ne {domain : String} {port : Option ℕ} (hdomain : IsDomain asciiDomain domain)
    {c : Char} (hc : c ∈ domain.toList ++ (portText port).toList) :
    (c != '/' && c != '?') = true := by
  rcases List.mem_append.mp hc with hmem | hmem
  · have hchar := hdomain.chars c hmem
    simp [ne_of_domainChar hchar (d := '/') (by decide),
      ne_of_domainChar hchar (d := '?') (by decide)]
  · rcases mem_portText hmem with rfl | hdigit
    · decide
    · have hslash : c ≠ '/' := fun heq => absurd (heq ▸ hdigit) (by decide)
      have hquery : c ≠ '?' := fun heq => absurd (heq ▸ hdigit) (by decide)
      simp [hslash, hquery]

theorem parseAscii_originText {domain : String} {port : Option ℕ} {tail : String}
    (hdomain : IsDomain asciiDomain domain) (hport : KeptPort port) (htail : UrlTail tail) :
    parseAscii (originText domain port ++ tail) = some ⟨domain,port,tail.toList⟩ := by
  have hstrip : Text.stripPrefix (originText domain port ++ tail) "https://" =
      some (domain ++ portText port ++ tail) := by
    rw [Text.stripPrefix_eq_some_iff, originText, String.append_assoc, String.append_assoc,
      String.append_assoc]
  have hstop : tail.toList.takeWhile (fun c => c != '/' && c != '?') = [] := by
    cases hlist : tail.toList with
    | nil => rfl
    | cons c rest =>
      rcases htail c (by rw [hlist]; rfl) with rfl | rfl <;> rfl
  have hauthority : (domain ++ portText port ++ tail).toList.takeWhile
      (fun c => c != '/' && c != '?') = domain.toList ++ (portText port).toList := by
    rw [String.toList_append, String.toList_append,
      List.takeWhile_append_of_pos fun c hc => authority_ne hdomain hc, hstop, List.append_nil]
  have hcolon : ∀ c ∈ domain.toList, (c != ':') = true := by
    intro c hc
    simpa using ne_of_domainChar (hdomain.chars c hc) (d := ':') (by decide)
  have hport' : (portText port).toList.takeWhile (· != ':') = [] ∧
      (portText port).toList.dropWhile (· != ':') = (portText port).toList := by
    cases port with
    | none => exact ⟨rfl,rfl⟩
    | some n =>
      rw [toList_portText]
      exact ⟨rfl,rfl⟩
  simp only [parseAscii, hstrip, hauthority, Option.bind_eq_bind, Option.bind_some,
    List.takeWhile_append_of_pos hcolon, List.dropWhile_append_of_pos hcolon, hport'.1, hport'.2,
    List.append_nil, String.ofList_toList, hdomain.ascii, asciiPort_portText hport,
    isDomain_iff.mp hdomain, if_true]
  simp

theorem asciiUrls_whatwg : WhatwgUrls asciiUrls asciiHost asciiDomain where
  parse_origin domain port tail hdomain hport htail :=
    ⟨_,parseAscii_originText hdomain hport htail,rfl,rfl⟩
  origin_parse text url domain _ hparse hhost := by
    obtain ⟨rest,-,hparse⟩ := Option.bind_eq_some_iff.mp hparse
    obtain ⟨name,-,hparse⟩ := Option.bind_eq_some_iff.mp hparse
    obtain ⟨port,hport,hparse⟩ := Option.bind_eq_some_iff.mp hparse
    obtain ⟨hvalid,hurl⟩ := Option.ite_none_right_eq_some.mp hparse
    cases hurl
    cases hhost
    exact ⟨port,isDomain_iff.mpr hvalid,keptPort_of_asciiPort hport,rfl⟩
  origin_appendPairs _ _ := rfl

def networkParams (origin : String) : Json := .object [("origins",.array [.string origin])]

/-- A valid manifest that declares one origin and one template at this origin. -/
def balanceManifest (origin : String) : Manifest where
  manifestVersion := 1
  id := ⟨"org.example.balance"⟩
  name := "Balance"
  description := none
  version := "1.0.0"
  publisher := ⟨"org.example","Example"⟩
  engineApiVersion := "1.2.0"
  uiApiVersion := "1.6.0"
  kind := .widget
  entrypoints := ⟨⟨"ui/widget.ftui",widgetUi_valid⟩,⟨"logic/plugin.wasm",pluginLogic_valid⟩⟩
  sizes := ⟨⟨200,100⟩,⟨100,50⟩,⟨400,200⟩⟩
  permissions := [⟨"network:https",some (networkParams origin)⟩]
  httpTemplates := [{ balanceTemplate with url := origin ++ "/v1/balance" }]
  storage := none

def lowerOrigin : String := "https://api.example.com"

def upperOrigin : String := "https://API.example.com"

theorem origins_canonical_lower :
    (∀ o ∈ declaredOrigins (balanceManifest lowerOrigin), Canonical asciiUrls asciiHost o) ∧
      TemplatesUsable asciiUrls (balanceManifest lowerOrigin) := by
  refine ((origins_canonical_iff asciiUrls_whatwg).2 CoreVersion parseCoreVersion
    (balanceManifest lowerOrigin) (by decide +kernel)).mpr ?_
  intro o ho
  have hdeclared : declaredOrigins (balanceManifest lowerOrigin) = [lowerOrigin] := by
    decide +kernel
  rw [hdeclared] at ho
  obtain rfl := List.mem_singleton.mp ho
  exact ⟨"api.example.com",none,rfl,isDomain_iff.mpr (by decide +kernel),
    ⟨by decide +kernel,by decide +kernel⟩,fun n hn => by cases hn⟩

/-- An origin with upper case is accepted, and the request at run time is then denied. -/
theorem upper_case_origin_denied :
    (∃ rate bytes timeout, parseCapabilityParams .networkHttps (some (networkParams upperOrigin)) =
      .ok (some (.network [upperOrigin] rate bytes timeout))) ∧
    ¬Canonical asciiUrls asciiHost upperOrigin ∧
    validateManifest parseCoreVersion (balanceManifest upperOrigin) = .ok () ∧
    ¬TemplatesUsable asciiUrls (balanceManifest upperOrigin) := by
  refine ⟨⟨_,_,_,rfl⟩,?_,by decide +kernel,?_⟩
  · intro h
    exact absurd (h.noUpper 'A' (by decide)) (by decide)
  · intro h
    have hallowed := h.decided [balanceConnection] ⟨fun _ => .ok [115, 51]⟩ "balance" ⟨1⟩ [] _ rfl
    exact absurd hallowed (by decide +kernel)

end Floatile.Shell.NetworkOrigins
