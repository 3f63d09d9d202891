import Gescom.Mobile.Device
import Gescom.Mobile.Hooks
import Mathlib.Data.List.Chain

/-!
# Where the requests of the queue go

The URL of a request is resolved: its dot segments are removed, so a path may climb. The paths that
`enqueueMutation` accepts do not climb out of `/v1` (`mutation_paths_stay`), the hooks build no others
as long as identifiers are UUIDs, and a device sends no others either (`requests_stay`).
-/

namespace Gescom.Mobile

open Transition

variable {H : Type}

/-! ## What must hold -/

/-- `https://host[:port]`. -/
structure ApiOrigin where
  authority : String
  delimited : ∀ c ∈ authority.toList, Url.endsAuthority c = false
  nonempty : ∃ c ∈ authority.toList, Url.isTabOrNewline c = false

def ApiOrigin.configuredApiUrl (origin : ApiOrigin) : String := "https://" ++ origin.authority

/-- The request goes to the API. -/
structure StaysIn (api url : Url.Record H) : Prop where
  scheme : url.scheme = api.scheme
  host : url.host = api.host
  port : url.port = api.port
  path : "/v1/".toList <+: url.pathname
  query : url.query = none
  fragment : url.fragment = none

def isHexDigit (c : Char) : Bool := "0123456789abcdefABCDEF".toList.contains c

/-- In groups of 8, 4, 4, 4 and 12 digits. -/
def isUuid (s : String) : Bool :=
  let groups := s.toList.splitOn '-'
  groups.map List.length == [8, 4, 4, 4, 12] && groups.all (·.all isHexDigit)

/-! ## Paths that are accepted -/

theorem assertValidMutationPath_eq_ok {path : String} :
    assertValidMutationPath path = .ok () ↔ validMutationPath path = true := by
  unfold assertValidMutationPath
  split <;> simp_all

theorem isPathChar_slash : isPathChar '/' = true := rfl

theorem validMutationPath_iff {path : String} :
    validMutationPath path = true ↔
      (∃ cs, path.toList = '/' :: cs) ∧ (∀ c ∈ path.toList, isPathChar c = true) ∧
        ¬ ['.', '.'] <:+: path.toList ∧ ¬ ['/', '/'] <:+: path.toList := by
  unfold validMutationPath
  split
  · rename_i cs heq
    rw [heq]
    simp [isPathChar_slash, and_assoc]
  · rename_i hnone
    constructor
    · intro h
      cases h
    · rintro ⟨⟨cs, hcs⟩, -⟩
      exact absurd hcs (hnone cs)

theorem isPathChar_ascii {c : Char} (h : isPathChar c = true) : c.toNat < 128 := by
  rcases Bool.or_eq_true_iff.1 h with halphanum | hother
  · exact Url.isAlphanum_ascii halphanum
  · have hall : "-._~/".toList.all (fun c => c.toNat < 128) = true := by decide
    exact of_decide_eq_true (List.all_eq_true.1 hall c (List.contains_iff_mem.1 hother))

/-- Of the characters of a path, the URL parser looks at `/` and `.` only. -/
theorem isPathChar_plain {c : Char} (h : isPathChar c = true) :
    Url.isPlain c = true ∧ Url.isC0ControlOrSpace c = false :=
  Url.forall_ascii (P := fun c => isPathChar c = true →
    Url.isPlain c = true ∧ Url.isC0ControlOrSpace c = false) (by decide) (isPathChar_ascii h) h

/-! ## The URL of a request -/

variable {hostParser : List Char → Option H} {origin : ApiOrigin} {path : String}

theorem apiUrl_origin (dev : Bool) (origin : ApiOrigin) :
    apiUrl dev (some origin.configuredApiUrl) = .ok (origin.configuredApiUrl ++ "/v1") := by
  have hempty : (some origin.configuredApiUrl).all (· == "") = false := by
    rw [Option.all_some, beq_eq_false_iff_ne]
    intro h
    have hlist : "https://".toList ++ origin.authority.toList = [] := by
      rw [← String.toList_append]
      exact congrArg String.toList h
    cases hlist
  have hhttps : (some origin.configuredApiUrl).any
      (fun url => "https://".toList.isPrefixOf url.toList) = true := by
    rw [Option.any_some, List.isPrefixOf_iff_prefix, ApiOrigin.configuredApiUrl,
      String.toList_append]
    exact List.prefix_append _ _
  rw [apiUrl, hempty, hhttps, Bool.and_false, Bool.not_true, Bool.and_false]
  rfl

/-- What follows `/v1` decides the path and nothing else. -/
theorem parse_requestUrl (hchars : ∀ c ∈ path.toList, isPathChar c = true)
    (hdots : ¬ ['.', '.'] <:+: path.toList) :
    Url.parse hostParser (requestUrl (origin.configuredApiUrl ++ "/v1") path).toList =
      (Url.authorityState hostParser .https
        (origin.authority.toList.filter (!Url.isTabOrNewline ·))).map fun authority =>
          { authority with
            scheme := .https
            path := Url.dropDots ((['v', '1'] ++ path.toList).splitOn '/')
            query := none, fragment := none } := by
  have hv1 : ∀ c ∈ ['v', '1'] ++ path.toList, isPathChar c = true := by
    have hall : ['v', '1'].all isPathChar = true := by decide
    intro c hc
    rcases List.mem_append.1 hc with hfixed | hpath
    · exact List.all_eq_true.1 hall c hfixed
    · exact hchars c hpath
  have hv1dots : ¬ ['.', '.'] <:+: ['v', '1'] ++ path.toList := by
    simpa [List.infix_cons_iff] using hdots
  have hnonempty : origin.authority.toList.filter (!Url.isTabOrNewline ·) ≠ [] := by
    obtain ⟨c, hc, hvisible⟩ := origin.nonempty
    exact List.ne_nil_of_mem (List.mem_filter.2 ⟨hc, by rw [hvisible]; rfl⟩)
  have htext : (requestUrl (origin.configuredApiUrl ++ "/v1") path).toList =
      Url.Scheme.https.text ++ "://".toList ++ origin.authority.toList ++
        '/' :: (['v', '1'] ++ path.toList) := by
    simp only [requestUrl, ApiOrigin.configuredApiUrl, String.toList_append, List.append_assoc]
    rfl
  have hvisible : ∀ c ∈ '/' :: (['v', '1'] ++ path.toList), Url.isC0ControlOrSpace c = false := by
    rintro c (_ | ⟨_, hc⟩)
    · rfl
    · exact (isPathChar_plain (hv1 c hc)).2
  rw [htext, Url.parse_absolute .https origin.delimited hnonempty ⟨_, rfl⟩ hvisible]
  congr 1
  funext authority
  exact Url.locate_plain authority .https (fun c hc => (isPathChar_plain (hv1 c hc)).1) hv1dots

/-- The first segment stays, and there is a second one. -/
theorem pathText_v1 (cs : List Char) :
    "/v1/".toList <+: Url.pathText (Url.dropDots ((['v', '1'] ++ '/' :: cs).splitOn '/')) := by
  have hsplit : (['v', '1'] ++ '/' :: cs).splitOn '/' = ['v', '1'] :: cs.splitOn '/' :=
    List.splitOn_append_cons_self_of_not_mem (by decide) cs
  have hne : cs.splitOn '/' ≠ [] := List.splitOn_ne_nil _ _
  obtain ⟨next, rest, hnext⟩ := List.exists_cons_of_ne_nil (Url.dropDots_ne_nil hne)
  rw [hsplit, Url.dropDots_cons hne, hnext]
  exact ⟨next ++ Url.pathText rest, rfl⟩

theorem accepted_stays {api : Url.Record H}
    (hapi : Url.parse hostParser (origin.configuredApiUrl ++ "/v1").toList = some api)
    (hvalid : validMutationPath path = true) :
    ∃ url, Url.parse hostParser (requestUrl (origin.configuredApiUrl ++ "/v1") path).toList =
      some url ∧ StaysIn api url := by
  obtain ⟨⟨cs, hcs⟩, hchars, hdots, -⟩ := validMutationPath_iff.1 hvalid
  have hbase : Url.parse hostParser (requestUrl (origin.configuredApiUrl ++ "/v1") "").toList =
      some api := by
    rw [requestUrl, String.append_empty]
    exact hapi
  rw [parse_requestUrl (fun c hc => by cases hc) (by decide)] at hbase
  obtain ⟨authority, hauthority, rfl⟩ := Option.map_eq_some_iff.1 hbase
  rw [parse_requestUrl hchars hdots, hauthority]
  refine ⟨_, rfl, rfl, rfl, rfl, ?_, rfl, rfl⟩
  rw [Url.Record.pathname, hcs]
  exact pathText_v1 cs

/-! ## The paths of the hooks -/

def isSegmentChar (c : Char) : Bool := isPathChar c && c != '.' && c != '/'

structure IsSegment (s : String) : Prop where
  nonempty : s ≠ ""
  chars : s.toList.all isSegmentChar = true

/-- Not the end of one segment and the start of an empty one. -/
def OneSlash (a b : Char) : Prop := ¬ (a = '/' ∧ b = '/')

instance : DecidableRel OneSlash := fun _ _ => inferInstanceAs (Decidable (¬ _))

/-- Segments, each after a `/`. -/
structure IsRoute (path : String) : Prop where
  first : path.toList.head? = some '/'
  chars : path.toList.all (fun c => isPathChar c && c != '.') = true
  last : path.toList.getLast? ≠ some '/'
  single : path.toList.IsChain OneSlash

variable {c : Char} {cs : List Char} {s : String}

theorem isSegmentChar_iff :
    isSegmentChar c = true ↔ isPathChar c = true ∧ c ≠ '.' ∧ c ≠ '/' := by
  simp [isSegmentChar, and_assoc]

theorem IsRoute.of_mem (h : IsRoute path) (hc : c ∈ path.toList) : isPathChar c = true ∧ c ≠ '.' := by
  have hboth := List.all_eq_true.1 h.chars c hc
  rw [Bool.and_eq_true, bne_iff_ne] at hboth
  exact hboth

theorem IsRoute.valid (h : IsRoute path) : validMutationPath path = true := by
  refine validMutationPath_iff.2 ⟨List.head?_eq_some_iff.1 h.first, fun c hc => (h.of_mem hc).1,
    fun hdots => ?_, fun hslashes => ?_⟩
  · exact (h.of_mem (hdots.mem List.mem_cons_self)).2 rfl
  · have hpair : ['/', '/'].IsChain OneSlash := h.single.infix hslashes
    exact absurd hpair (by decide)

theorem oneSlash_cons (h : ∀ c ∈ cs, c ≠ '/') (c : Char) : (c :: cs).IsChain OneSlash := by
  induction cs generalizing c with
  | nil => exact .singleton c
  | cons d cs ih =>
    have hd : d ≠ '/' := h d List.mem_cons_self
    exact .cons_cons (fun hslash => hd hslash.2) (ih (fun c hc => h c (List.mem_cons_of_mem _ hc)) d)

theorem IsRoute.append (h : IsRoute path) (hs : IsSegment s) : IsRoute (path ++ "/" ++ s) := by
  have htext : (path ++ "/" ++ s).toList = path.toList ++ '/' :: s.toList := by
    rw [String.toList_append, String.toList_append, List.append_assoc]
    rfl
  have hchars : ∀ c ∈ s.toList, isPathChar c = true ∧ c ≠ '.' ∧ c ≠ '/' :=
    fun c hc => isSegmentChar_iff.1 (List.all_eq_true.1 hs.chars c hc)
  refine ⟨?_, List.all_eq_true.2 fun c hc => ?_, fun hlast => ?_, ?_⟩
  · rw [htext, List.head?_append, h.first]
    rfl
  · rw [htext, List.mem_append, List.mem_cons] at hc
    rcases hc with hold | rfl | hnew
    · exact List.all_eq_true.1 h.chars c hold
    · rfl
    · rw [(hchars c hnew).1, Bool.true_and, bne_iff_ne]
      exact (hchars c hnew).2.1
  · have hne : s.toList ≠ [] := fun hnil => hs.nonempty (String.toList_eq_nil_iff.1 hnil)
    rw [htext, List.append_cons, List.getLast?_append_of_ne_nil _ hne] at hlast
    exact (hchars '/' (List.mem_of_getLast? hlast)).2.2 rfl
  · rw [htext, List.isChain_append]
    refine ⟨h.single, oneSlash_cons (fun c hc => (hchars c hc).2.2) '/', fun x hx y _ hslash => ?_⟩
    exact h.last (hslash.1 ▸ hx)

def collections : List String :=
  ["/customers", "/suppliers", "/products", "/stock/movements", "/purchases", "/sales", "/invoices",
    "/accounting/accounts", "/accounting/journal-entries"]

theorem isRoute_of_mem (h : path ∈ collections) : IsRoute path := by
  have hall : ∀ path ∈ collections, path.toList.head? = some '/' ∧
      path.toList.all (fun c => isPathChar c && c != '.') = true ∧
        path.toList.getLast? ≠ some '/' ∧ path.toList.IsChain OneSlash := by decide
  obtain ⟨hfirst, hchars, hlast, hsingle⟩ := hall path h
  exact ⟨hfirst, hchars, hlast, hsingle⟩

/-! ## Identifiers -/

theorem encodeURIComponent_eq_self (h : ∀ c ∈ s.toList, isUnreserved c = true) :
    encodeURIComponent s = s := by
  rw [encodeURIComponent, Url.flatMap_utf8PercentEncode fun c hc => by rw [h c hc]; rfl,
    String.ofList_toList]

theorem mem_splitOn (sep : Char) (h : c ∈ cs) : c = sep ∨ ∃ group ∈ cs.splitOn sep, c ∈ group := by
  induction cs with
  | nil => cases h
  | cons d cs ih =>
    obtain ⟨first, rest, hsplit⟩ := List.exists_cons_of_ne_nil (List.splitOn_ne_nil sep cs)
    rw [List.splitOn_cons_eq_if_modifyHead]
    rw [hsplit] at ih ⊢
    split
    · rename_i hsep
      rcases List.mem_cons.1 h with rfl | hc
      · exact .inl (eq_of_beq hsep)
      · obtain rfl | ⟨group, hgroup, hmem⟩ := ih hc
        · exact .inl rfl
        · exact .inr ⟨group, List.mem_cons_of_mem _ hgroup, hmem⟩
    · rcases List.mem_cons.1 h with rfl | hc
      · exact .inr ⟨c :: first, List.mem_cons_self, List.mem_cons_self⟩
      · obtain rfl | ⟨group, hgroup, hmem⟩ := ih hc
        · exact .inl rfl
        · rcases List.mem_cons.1 hgroup with rfl | hlater
          · exact .inr ⟨d :: group, List.mem_cons_self, List.mem_cons_of_mem _ hmem⟩
          · exact .inr ⟨group, List.mem_cons_of_mem _ hlater, hmem⟩

theorem isUuid_chars (h : isUuid s = true) (hc : c ∈ s.toList) :
    isSegmentChar c = true ∧ isUnreserved c = true := by
  have hgroups := (Bool.and_eq_true_iff.1 h).2
  obtain rfl | ⟨group, hgroup, hmem⟩ := mem_splitOn '-' hc
  · decide
  · have hdigit := List.all_eq_true.1 (List.all_eq_true.1 hgroups group hgroup) c hmem
    have hall : "0123456789abcdefABCDEF".toList.all
        (fun c => isSegmentChar c && isUnreserved c) = true := by decide
    have hboth := List.all_eq_true.1 hall c (List.contains_iff_mem.1 hdigit)
    exact Bool.and_eq_true_iff.1 hboth

theorem isUuid_segment (h : isUuid s = true) : IsSegment (encodeURIComponent s) := by
  rw [encodeURIComponent_eq_self fun c hc => (isUuid_chars h hc).2]
  refine ⟨?_, List.all_eq_true.2 fun c hc => (isUuid_chars h hc).1⟩
  rintro rfl
  cases h

theorem length_hexDigits (id : Uuid) (start count : Nat) :
    (hexDigits id start count).toList.length = count := by
  rw [hexDigits, String.toList_ofList, List.length_map, List.length_range]

theorem isHexDigit_of_mem {id : Uuid} {start count : Nat} (h : c ∈ (hexDigits id start count).toList) :
    isHexDigit c = true := by
  rw [hexDigits, String.toList_ofList] at h
  obtain ⟨i, -, rfl⟩ := List.mem_map.1 h
  have hall : ∀ n < 16, isHexDigit (hexDigit n) = true := by decide
  exact hall _ (Nat.mod_lt _ (by decide))

/-- The identifiers that the API gives. -/
theorem isUuid_uuidText (id : Uuid) : isUuid (uuidText id) = true := by
  have hgroups : (uuidText id).toList.splitOn '-' =
      [hexDigits id 0 8, hexDigits id 8 4, hexDigits id 12 4, hexDigits id 16 4,
        hexDigits id 20 12].map String.toList := by
    rw [uuidText, String.toList_intercalate]
    refine List.splitOn_intercalate '-' (fun group hgroup hdash => ?_) (List.cons_ne_nil _ _)
    have hdigit : isHexDigit '-' = true := by
      simp only [List.map_cons, List.map_nil, List.mem_cons, List.not_mem_nil, or_false] at hgroup
      rcases hgroup with rfl | rfl | rfl | rfl | rfl <;> exact isHexDigit_of_mem hdash
    cases hdigit
  rw [isUuid, hgroups]
  simp only [List.map_cons, List.map_nil, length_hexDigits, beq_self_eq_true, Bool.true_and,
    List.all_cons, List.all_nil, Bool.and_true, Bool.and_eq_true, List.all_eq_true]
  refine ⟨?_, ?_, ?_, ?_, ?_⟩ <;> exact fun c hc => isHexDigit_of_mem hc

/-! ## Each hook -/

theorem createInput_route {route values : String} (h : route ∈ collections) :
    IsRoute (createInput route values).path := isRoute_of_mem h

theorem itemRoute {route id : String} (h : route ∈ collections) (hid : isUuid id = true) :
    IsRoute (route ++ "/" ++ encodeURIComponent id) := (isRoute_of_mem h).append (isUuid_segment hid)

theorem saveInput_route {route values : String} {id : Option String} (h : route ∈ collections)
    (hid : ∀ x ∈ id.toList, isUuid x = true) : IsRoute (saveInput route id values).path := by
  unfold saveInput
  split
  · rename_i x hx
    exact itemRoute h (hid x (by simpa using Option.eq_some_of_filter_eq_some hx))
  · exact createInput_route h

theorem MutationHook.route (hook : MutationHook) (hids : ∀ id ∈ hook.ids, isUuid id = true) :
    IsRoute hook.input.path := by
  cases hook with
  | useSaveCustomer id | useSaveSupplier id | useSaveProduct id =>
    exact saveInput_route (by decide) hids
  | useDeactivateCustomer id | useDeactivateSupplier id | useDeactivateProduct id =>
    exact itemRoute (by decide) (hids id List.mem_cons_self)
  | useConfirmPurchase id | useCancelPurchase id | useConfirmSale id | useCancelSale id
  | useMarkInvoicePaid id | useVoidInvoice id =>
    exact (itemRoute (by decide) (hids id List.mem_cons_self)).append ⟨by decide, by decide⟩
  | useCreateStockMovement | useCreatePurchase | useCreateSale | useCreateInvoice
  | useCreateAccount | useCreateJournalEntry => exact createInput_route (by decide)

/-- The request of a hook goes to the route that the hook names. -/
theorem hook_pathname {api : Url.Record H} {hook : MutationHook}
    (hapi : Url.parse hostParser (origin.configuredApiUrl ++ "/v1").toList = some api)
    (hids : ∀ id ∈ hook.ids, isUuid id = true) :
    ∃ url, Url.parse hostParser
        (requestUrl (origin.configuredApiUrl ++ "/v1") hook.input.path).toList = some url ∧
      StaysIn api url ∧ url.pathname = ("/v1" ++ hook.input.path).toList := by
  have hroute : IsRoute hook.input.path := hook.route hids
  obtain ⟨-, hchars, hdots, -⟩ := validMutationPath_iff.1 hroute.valid
  obtain ⟨url, hurl, hstays⟩ := accepted_stays hapi hroute.valid
  refine ⟨url, hurl, hstays, ?_⟩
  rw [parse_requestUrl hchars hdots] at hurl
  obtain ⟨authority, -, rfl⟩ := Option.map_eq_some_iff.1 hurl
  have hnodot : '.' ∉ ['v', '1'] ++ hook.input.path.toList := fun h =>
    (hroute.of_mem ((List.mem_append.1 h).resolve_left (by decide))).2 rfl
  rw [Url.Record.pathname, Url.dropDots_splitOn hnodot, Url.pathText_splitOn, String.toList_append]
  rfl

/-! ## The requests of a device -/

structure Phone.PathsOk (phone : Phone) : Prop where
  rows : ∀ m ∈ phone.queue.rows, validMutationPath m.path = true
  held : ∀ deps r, phone.processing = some (deps, r) → ∀ m ∈ r.held,
    validMutationPath m.path = true
  requests : ∀ r ∈ phone.requests, validMutationPath r.path = true

variable {phone phone' : Phone} {d d' d₀ : Device}

theorem SameMutation.path_eq {m m' : QueuedMutation} (h : SameMutation m m') : m.path = m'.path :=
  congrArg Request.path (h.2 ⟨0, none⟩)

theorem Phone.PathsOk.carries (h : phone.PathsOk) (hc : phone.Carries phone')
    (hrequests : ∀ r ∈ phone'.requests, validMutationPath r.path = true) : phone'.PathsOk where
  rows m' hm' := by
    obtain ⟨m, hm, hsame⟩ := hc.rows m' hm'
    exact hsame.path_eq ▸ h.rows m hm
  held deps r hr m hm := by
    rcases hc.run deps r hr m hm with hrow | ⟨deps', r', hr', hheld⟩
    · exact h.rows m hrow
    · exact h.held deps' r' hr' m hheld
  requests := hrequests

/-- A request is that of a mutation the run holds. -/
theorem Phone.PathsOk.sends {a : Action} (h : phone.PathsOk) (hst : phone.step a = some phone') :
    ∀ r ∈ phone'.requests, validMutationPath r.path = true := by
  intro r hr
  rcases step_requests hst with ⟨hsame, -⟩ | ⟨deps, m, t, rest, hrun, hsent, -⟩
  · exact h.requests r (hsame ▸ hr)
  · rw [hsent] at hr
    rcases List.mem_append.1 hr with hold | hnew
    · exact h.requests r hold
    · obtain rfl := List.mem_singleton.1 hnew
      exact h.held deps _ hrun m List.mem_cons_self

theorem Phone.PathsOk.enqueueMutation (h : phone.PathsOk) (input : EnqueueMutationInput)
    (idempotencyKey : String) (author : AccessToken) :
    (phone.enqueueMutation input idempotencyKey author).PathsOk := by
  unfold Phone.enqueueMutation
  split
  · rename_i hvalid
    refine ⟨fun m hm => ?_, h.held, h.requests⟩
    rcases Table.mem_insert hm with hold | rfl
    · exact h.rows m hold
    · exact hvalid
  · exact h

theorem Phone.PathsOk.step {a : Action} (h : phone.PathsOk) (hst : phone.step a = some phone') :
    phone'.PathsOk := by
  rcases (step_change hst).inserts with hcarries | ⟨m, input, isOnline, rfl, -⟩
  · exact h.carries hcarries (h.sends hst)
  · obtain ⟨t, -, rfl⟩ := Option.map_eq_some_iff.1 hst
    have hok := h.enqueueMutation input m.idempotencyKey t
    exact ⟨hok.rows, hok.held, hok.requests⟩

theorem device_pathsOk {a : DeviceAction} (h : d.phone.PathsOk) (hst : d.step a = some d') :
    d'.phone.PathsOk := by
  rcases step_phone hst with ⟨b, -, hphone⟩ | ⟨hcarries, hsame, -⟩
  · exact h.step hphone
  · exact h.carries hcarries (hsame ▸ h.requests)

/-- Whatever is enqueued, killed and replayed, every request that the device sends goes to the API. -/
theorem requests_stay {api : Url.Record H} (h0 : d₀.phone.PathsOk)
    (hapi : Url.parse hostParser (origin.configuredApiUrl ++ "/v1").toList = some api)
    (h : Reach device Always d₀ d) : ∀ r ∈ d.phone.requests,
      ∃ url, Url.parse hostParser
        (requestUrl (origin.configuredApiUrl ++ "/v1") r.path).toList = some url ∧
          StaysIn api url := by
  have hok : d.phone.PathsOk :=
    h.inv (fun d => d.phone.PathsOk) h0 fun _ _ _ _ ih _ hst => device_pathsOk ih hst
  exact fun r hr => accepted_stays hapi (hok.requests r hr)

/-! ## The result -/

theorem mutation_paths_stay (hostParser : List Char → Option H) :
    (∀ (dev : Bool) (origin : ApiOrigin) (base path : String) (api : Url.Record H),
      apiUrl dev (some origin.configuredApiUrl) = .ok base →
      Url.parse hostParser base.toList = some api →
      assertValidMutationPath path = .ok () →
        ∃ url, Url.parse hostParser (requestUrl base path).toList = some url ∧ StaysIn api url) ∧
    ∀ hook : MutationHook, (∀ id ∈ hook.ids, isUuid id = true) →
      assertValidMutationPath hook.input.path = .ok () := by
  constructor
  · intro dev origin base path api hbase hapi hvalid
    rw [apiUrl_origin] at hbase
    cases hbase
    exact accepted_stays hapi (assertValidMutationPath_eq_ok.1 hvalid)
  · intro hook hids
    exact assertValidMutationPath_eq_ok.2 (hook.route hids).valid

/-- What the host parser does to the letters, dots and dashes of a domain. -/
def sampleHostParser (host : List Char) : Option (List Char) := some (host.map Char.toLower)

def sampleOrigin : ApiOrigin where
  authority := "api.change-me.example:8443"
  delimited c hc := by
    have hnone : "api.change-me.example:8443".toList.any Url.endsAuthority = false := by decide
    exact Bool.eq_false_iff.2 (List.any_eq_false.1 hnone c hc)
  nonempty := ⟨'a', by decide, rfl⟩

def sampleApi : Url.Record (List Char) where
  scheme := .https
  username := []
  password := []
  host := "api.change-me.example".toList
  port := some 8443
  path := [['v', '1']]
  query := none
  fragment := none

def sampleHook : MutationHook := .useConfirmSale "0c9d1f3e-5B7a-4c2d-9e8f-0123456789ab"

theorem mutation_paths_stay_sample :
    (∃ url, Url.parse sampleHostParser
        (requestUrl "https://api.change-me.example:8443/v1" "/sales/./confirm").toList = some url ∧
      StaysIn sampleApi url) ∧ assertValidMutationPath sampleHook.input.path = .ok () :=
  ⟨(mutation_paths_stay sampleHostParser).1 false sampleOrigin _ _ sampleApi rfl
      (by decide +kernel) rfl,
    (mutation_paths_stay sampleHostParser).2 sampleHook (by decide +kernel)⟩

/-- The path is refused, and it would climb out. -/
example : assertValidMutationPath "/customers/../../auth/logout" =
      .error "Chemin de mutation invalide : /customers/../../auth/logout" ∧
    (Url.parse sampleHostParser
        (requestUrl "https://api.change-me.example/v1" "/customers/../../auth/logout").toList).map
      Url.Record.pathname = some "/auth/logout".toList := by
  decide +kernel

end Gescom.Mobile
