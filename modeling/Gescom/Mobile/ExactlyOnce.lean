import Gescom.Erp.Idempotency
import Gescom.Erp.Server
import Gescom.Mobile.Device

/-!
# One document for a queued creation

A device and the server it sends its queue to. Every request of a row carries the key of the row; it
may reach the server or not, its answer may reach the device or not, and calls of one row may
overlap. `exactly_once` says that a row is at most one document, and that a row `markMutationDone`
has deleted is exactly one.

A row may be sent with the tokens of two enterprises. It is one document all the same: what its body
names first belongs to one enterprise.
-/

namespace Gescom.Mobile

open Transition ReadCommitted Erp

/-! ## Requests and calls -/

def endpointPath : Endpoint → String
  | .create .sale => "/sales"
  | .create .purchase => "/purchases"
  | .create .invoice => "/invoices"
  | .create .entry => "/accounting/journal-entries"
  | .movement => "/stock/movements"

def endpoints : List Endpoint :=
  [.create .sale, .create .purchase, .create .invoice, .create .entry, .movement]

def endpointOf (path : String) : Option Endpoint :=
  endpoints.find? fun endpoint => endpointPath endpoint = path

/-- What `JSON.parse` and the schemas make of a body. -/
structure Bodies where
  create : (k : Kind) → Option String → Option k.Input
  movement : Option String → Option CreateStockMovementInput

variable (bodies : Bodies)

/-- The call a controller makes. -/
def Request.arguments (r : Request) : Option Arguments :=
  if r.method = .post then
    match endpointOf r.path, r.authorization.enterpriseId with
    | some (.create k), some e =>
      (bodies.create k r.body).map fun input => .create k ⟨e, input, some r.idempotencyKey⟩
    | some .movement, some e =>
      (bodies.movement r.body).map fun input => .movement e input (some r.idempotencyKey)
    | _, _ => none
  else none

/-- The row creates a document. -/
def QueuedMutation.Financial (m : QueuedMutation) : Prop :=
  m.method = .post ∧ ∃ endpoint, m.path = endpointPath endpoint

/-! ## The device and the server -/

structure Attempt where
  /-- The request it serves; `none`: another client's. -/
  request : Option Nat
  call : Call

structure Link where
  device : Device
  store : ErpStore
  /-- Every row that was inserted in the queue. -/
  ever : List QueuedMutation := []
  /-- The keys of other clients. -/
  foreign : List String := []

/-- What is fed to a thread of the server. -/
inductive Feed where
  /-- A request arrives. -/
  | arrive (i : Nat)
  | other (args : Arguments)
  | run (input : Input)

inductive Outside where
  | device (a : DeviceAction)
  | beside (x : Beside)

def attemptStep (pid : Nat) (feed : Feed) (l : Link) :
    Option Attempt → Option (Link × Option Attempt)
  | none =>
    match feed with
    | .arrive i => (l.device.phone.requests[i]?.bind (Request.arguments bodies)).map fun args =>
        (l, some ⟨some i, args.call⟩)
    | .other args => some
        ({ l with foreign := args.idempotencyKey.toList ++ l.foreign }, some ⟨none, args.call⟩)
    | .run _ => none
  | some a =>
    match feed with
    | .run input => (a.call.step pid input l.store).map fun r =>
        ({ l with store := r.1 }, some { a with call := r.2 })
    | _ => none

/-- The rows a step of the device has inserted. -/
def inserted (d d' : Device) : List QueuedMutation :=
  d'.phone.queue.rows.filter fun m => d.phone.nextId ≤ m.id

def Link.outside (l : Link) : Outside → Link
  | .device a =>
    match l.device.step a with
    | none => l
    | some d => { l with device := d, ever := l.ever ++ inserted l.device d }
  | .beside x => { l with store := l.store.autocommit x.apply }

def link : Machine Link (Option Attempt) Feed Outside where
  thread pid feed l a := attemptStep bodies pid feed l a
  env x l := l.outside x

abbrev LinkPool := Pool Link (Option Attempt)

/-! ## What must hold -/

/-- A generated key is not empty, and no other row or client has it. -/
def DistinctKeys (P : LinkPool) : Act Feed Outside → Prop
  | .env (.device (.app (.enqueueMutation _ key _))) => key ≠ "" ∧
      key ∉ P.shared.ever.map QueuedMutation.idempotencyKey ∧ key ∉ P.shared.foreign
  | .run _ (.other args) => ∀ key, args.idempotencyKey = some key →
      key ∉ P.shared.ever.map QueuedMutation.idempotencyKey
  | _ => True

/-- The server answers a creation 2xx after its call has returned; its other answers are free. -/
def ServerAnswers (P : LinkPool) : Act Feed Outside → Prop
  | .env (.device (.app (.respond (some r)))) => r.ok = true → ∀ deps m rest,
      P.shared.device.phone.processing = some (deps, .waiting m rest) → m.Financial →
      ∃ pid a, P.threads pid = some a ∧ a.call.Returned ∧
        a.request = some (P.shared.device.phone.requests.length - 1)
  | _ => True

def Exchange (P : LinkPool) (a : Act Feed Outside) : Prop := DistinctKeys P a ∧ ServerAnswers P a

/-- A device that has not been used, and a server with documents of other clients. -/
structure LinkStarts (P : LinkPool) : Prop where
  device : DeviceStarts P.shared.device
  queue : P.shared.device.phone.queue.rows = []
  requests : P.shared.device.phone.requests = []
  ever : P.shared.ever = []
  indexes : IndexesOk P.shared.store.db
  foreign : ∀ key, key ∉ P.shared.foreign → P.shared.store.db.createdWith key = []
  threads : ∀ pid, P.threads pid = none

structure ExactlyOnce (P₀ : LinkPool) : Prop where
  atMostOnce : ∀ P m, Reach (link bodies).system Exchange P₀ P → m ∈ P.shared.ever →
    (P.shared.store.db.createdWith m.idempotencyKey).length ≤ 1
  /-- `markMutationDone` deletes the row of `m`. -/
  done : ∀ P deps m rest r P' P'', Reach (link bodies).system Exchange P₀ P →
    P.shared.device.phone.processing = some (deps, .waiting m rest) → m.Financial → r.ok = true →
    Exchange P (.env (.device (.app (.respond (some r))))) →
    (link bodies).system.step P (.env (.device (.app (.respond (some r))))) = some P' →
    Reach (link bodies).system Exchange P' P'' →
    (P''.shared.store.db.createdWith m.idempotencyKey).length = 1

/-! ## Arguments of a row -/

variable {bodies} {m m' : QueuedMutation} {t t' : AccessToken} {r : Request} {args : Arguments}

theorem arguments_key (h : r.arguments bodies = some args) :
    args.idempotencyKey = some r.idempotencyKey := by
  unfold Request.arguments at h
  split at h
  · split at h
    · obtain ⟨input, -, rfl⟩ := Option.map_eq_some_iff.1 h
      rfl
    · obtain ⟨input, -, rfl⟩ := Option.map_eq_some_iff.1 h
      rfl
    · cases h
  · cases h

/-- The kind and the input of a call are those of its row, whatever the token. -/
theorem arguments_create {k : Kind} {c : Create k.Input}
    (h : r.arguments bodies = some (.create k c)) :
    endpointOf r.path = some (.create k) ∧ bodies.create k r.body = some c.input := by
  unfold Request.arguments at h
  split at h
  · split at h
    · rename_i k' e hendpoint he
      obtain ⟨input, hinput, hargs⟩ := Option.map_eq_some_iff.1 h
      cases hargs
      exact ⟨hendpoint, hinput⟩
    · obtain ⟨input, -, hargs⟩ := Option.map_eq_some_iff.1 h
      cases hargs
    · cases h
  · cases h

theorem arguments_movement {e : Uuid} {input : CreateStockMovementInput} {key : Option String}
    (h : r.arguments bodies = some (.movement e input key)) :
    endpointOf r.path = some .movement ∧ bodies.movement r.body = some input := by
  unfold Request.arguments at h
  split at h
  · split at h
    · obtain ⟨input', -, hargs⟩ := Option.map_eq_some_iff.1 h
      cases hargs
    · rename_i e' hendpoint he
      obtain ⟨input', hinput, hargs⟩ := Option.map_eq_some_iff.1 h
      cases hargs
      exact ⟨hendpoint, hinput⟩
    · cases h
  · cases h

/-! ## The invariant -/

variable (bodies) in
/-- A row of the database was created for a row of the queue. -/
def MadeFor (db : Db) (m : QueuedMutation) (k : Kind) (row : k.Row) : Prop :=
  ∃ t c, (m.request t).arguments bodies = some (.create k c) ∧
    DocumentRow.enterpriseId row = c.enterpriseId ∧ k.Owned db c.enterpriseId c.input

variable (bodies) in
def MovedFor (db : Db) (m : QueuedMutation) (x : StockMovement) : Prop :=
  ∃ t e input key, (m.request t).arguments bodies = some (.movement e input key) ∧
    x.enterpriseId = e ∧ OwnedProduct db e input.productId

variable (bodies) in
/-- Where the documents come from. -/
structure Traced (db : Db) (ever : List QueuedMutation) (foreign : List String) : Prop where
  rows : ∀ (k : Kind), ∀ row ∈ k.rows db, ∀ key, DocumentRow.idempotencyKey row = some key →
    key ∈ foreign ∨ ∃ m ∈ ever, m.idempotencyKey = key ∧ MadeFor bodies db m k row
  movements : ∀ x ∈ db.movements, ∀ key, x.idempotencyKey = some key →
    key ∈ foreign ∨ ∃ m ∈ ever, m.idempotencyKey = key ∧ MovedFor bodies db m x

/-- What the device holds and has sent are rows of its queue. -/
structure PhoneOk (phone : Phone) (ever : List QueuedMutation) : Prop where
  queue : QueueOk phone
  rows : ∀ m ∈ phone.queue.rows, ∃ m₀ ∈ ever, SameMutation m₀ m
  held : ∀ deps run, phone.processing = some (deps, run) → ∀ m ∈ run.held,
    ∃ m₀ ∈ ever, SameMutation m₀ m
  sent : ∀ r ∈ phone.requests, ∃ m₀ ∈ ever, ∃ t, r = m₀.request t
  last : ∀ deps m rest, phone.processing = some (deps, .waiting m rest) →
    ∃ t, phone.requests.getLast? = some (m.request t)

variable (bodies) in
structure LinkOk (l : Link) : Prop where
  keys : (l.ever.map QueuedMutation.idempotencyKey).Nodup
  nonempty : ∀ m ∈ l.ever, m.idempotencyKey ≠ ""
  foreign : ∀ m ∈ l.ever, m.idempotencyKey ∉ l.foreign
  phone : PhoneOk l.device.phone l.ever
  indexes : IndexesOk l.store.db
  traced : Traced bodies l.store.db l.ever l.foreign

variable (bodies) in
/-- What a call knows, and which request it serves. -/
def AttemptKnows (pid : Nat) (a : Option Attempt) (l : Link) : Prop :=
  ∀ x, a = some x → x.call.Knows pid l.store ∧
    match x.request with
    | some i => ∃ r, l.device.phone.requests[i]? = some r ∧
        r.arguments bodies = some x.call.arguments
    | none => ∀ key, x.call.arguments.idempotencyKey = some key → key ∈ l.foreign

/-- What a step of the server is for the others. -/
structure ServerSide (pid : Nat) (l l' : Link) : Prop where
  device : l'.device = l.device
  ever : l'.ever = l.ever
  foreign : l.foreign ⊆ l'.foreign
  store : ServerStep pid l.store l'.store

/-! ## The device -/

theorem SameMutation.trans {a b c : QueuedMutation} (h : SameMutation a b) (h' : SameMutation b c) :
    SameMutation a c := ⟨h.1.trans h'.1, fun t => (h.2 t).trans (h'.2 t)⟩

theorem SameMutation.key (h : SameMutation m m') : m.idempotencyKey = m'.idempotencyKey :=
  congrArg Request.idempotencyKey (h.2 ⟨0, none⟩)

variable {phone phone' : Phone} {ever : List QueuedMutation} {d d' : Device}

/-- A row the queue has had. -/
def Known (ever : List QueuedMutation) (m : QueuedMutation) : Prop :=
  ∃ m₀ ∈ ever, SameMutation m₀ m

theorem Known.mono {new : List QueuedMutation} (h : Known ever m) : Known (ever ++ new) m := by
  obtain ⟨m₀, hm₀, hsame⟩ := h
  exact ⟨m₀, List.mem_append_left _ hm₀, hsame⟩

/-- Steps that insert no row. -/
theorem PhoneOk.carries (h : PhoneOk phone ever) (hc : phone.Carries phone')
    (hsent : ∀ r ∈ phone'.requests, ∃ m₀ ∈ ever, ∃ t, r = m₀.request t)
    (hlast : ∀ deps m rest, phone'.processing = some (deps, .waiting m rest) →
      ∃ t, phone'.requests.getLast? = some (m.request t)) : PhoneOk phone' ever where
  queue := h.queue.carries hc
  rows m' hm' := by
    obtain ⟨m, hm, hsame⟩ := hc.rows m' hm'
    obtain ⟨m₀, hm₀, hknown⟩ := h.rows m hm
    exact ⟨m₀, hm₀, hknown.trans hsame⟩
  held deps run hrun m hm := by
    rcases hc.run deps run hrun m hm with hrow | ⟨deps', run', hrun', hheld⟩
    · exact h.rows m hrow
    · exact h.held deps' run' hrun' m hheld
  sent := hsent
  last := hlast

theorem inserted_of_nextId (hq : QueueOk d'.phone) (h : d'.phone.nextId = d.phone.nextId) :
    inserted d d' = [] := by
  refine List.filter_eq_nil_iff.2 fun m hm hle => ?_
  have hlt := hq.ids m hm
  simp only [decide_eq_true_eq] at hle
  omega

/-- The rows of a step of the application that inserts `m`. -/
theorem inserted_of_insert (hq : QueueOk d.phone) (hid : m.id = d.phone.nextId)
    (hqueue : d'.phone.queue = d.phone.queue.insert m) :
    d'.phone.queue.rows = d.phone.queue.rows ++ [m] ∧ inserted d d' = [m] := by
  have hnew : d.phone.queue.find? (Keyed.key m) = none := by
    refine List.find?_eq_none.2 fun row hrow => ?_
    have hlt := hq.ids row hrow
    simp only [Keyed.key, hid, beq_iff_eq]
    omega
  have hrows : d'.phone.queue.rows = d.phone.queue.rows ++ [m] := by
    rw [hqueue, Table.rows_insert hnew]
  refine ⟨hrows, ?_⟩
  have hold : d.phone.queue.rows.filter (fun m => d.phone.nextId ≤ m.id) = [] := by
    refine List.filter_eq_nil_iff.2 fun row hrow hle => ?_
    have hlt := hq.ids row hrow
    simp only [decide_eq_true_eq] at hle
    omega
  rw [inserted, hrows, List.filter_append, hold]
  simp [hid]

/-- A step that inserts no row. -/
theorem device_carries (h : PhoneOk d.phone ever) (hc : d.phone.Carries d'.phone)
    (hr : (d'.phone.requests = d.phone.requests ∧ d.phone.WaitsOn d'.phone) ∨
      ∃ deps m t rest, d.phone.processing = some (deps, .marking m t rest) ∧
        d'.phone.requests = d.phone.requests ++ [m.request t] ∧
        d'.phone.processing = some (deps, .waiting m rest)) :
    PhoneOk d'.phone ever ∧ d.phone.requests <+: d'.phone.requests := by
  rcases hr with ⟨hsame, hwaits⟩ | ⟨deps, m, t, rest, hrun, hrequests, hrun'⟩
  · rw [hsame]
    refine ⟨h.carries hc (by rw [hsame]; exact h.sent) fun deps m rest hrun => ?_,
      List.prefix_refl _⟩
    rw [hsame]
    exact h.last deps m rest (hwaits deps m rest hrun)
  · rw [hrequests]
    refine ⟨h.carries hc (fun r hmem => ?_) fun deps' m' rest' hrun'' => ?_, List.prefix_append ..⟩
    · rw [hrequests] at hmem
      rcases List.mem_append.1 hmem with hold | hnew
      · exact h.sent r hold
      · obtain ⟨m₀, hm₀, hsame⟩ := h.held deps _ hrun m List.mem_cons_self
        rw [List.mem_singleton.1 hnew]
        exact ⟨m₀, hm₀, t, (hsame.2 t).symm⟩
    · cases hrun'.symm.trans hrun''
      exact ⟨t, by rw [hrequests]; simp⟩

/-- A step of the device inserts a row with a new key, or none. -/
theorem device_step {a : DeviceAction} (h : PhoneOk d.phone ever) (hst : d.step a = some d') :
    PhoneOk d'.phone (ever ++ inserted d d') ∧ d.phone.requests <+: d'.phone.requests ∧
      (inserted d d' = [] ∨ ∃ m input isOnline, inserted d d' = [m] ∧
        a = .app (.enqueueMutation input m.idempotencyKey isOnline)) := by
  have hkept : ∀ hc : d.phone.Carries d'.phone, inserted d d' = [] := fun hc =>
    inserted_of_nextId (h.queue.carries hc) hc.nextId
  rcases step_phone hst with ⟨b, rfl, hphone⟩ | ⟨hcarries, hsame, hrun⟩
  · have hrequests := step_requests hphone
    rcases (step_change hphone).inserts with
      hcarries | ⟨m, input, isOnline, rfl, hid, hnext, hqueue, hrun⟩
    · rw [hkept hcarries, List.append_nil]
      obtain ⟨hok, hprefix⟩ := device_carries h hcarries hrequests
      exact ⟨hok, hprefix, .inl rfl⟩
    · obtain ⟨hrows, hinserted⟩ := inserted_of_insert h.queue hid hqueue
      rw [hinserted]
      obtain ⟨hsame, hwaits⟩ : d'.phone.requests = d.phone.requests ∧ d.phone.WaitsOn d'.phone := by
        rcases hrequests with hsame | ⟨deps, x, t, rest, hmarking, -, hwaiting⟩
        · exact hsame
        · rw [hrun, hmarking] at hwaiting
          cases hwaiting
      refine ⟨⟨h.queue.change (step_change hphone), fun x hx => ?_, fun deps run hr x hx => ?_,
        fun r hr => ?_, fun deps x rest hr => ?_⟩, by rw [hsame], .inr ⟨m, input, isOnline, rfl, rfl⟩⟩
      · rw [hrows] at hx
        rcases List.mem_append.1 hx with hold | hnew
        · exact Known.mono (h.rows x hold)
        · exact ⟨m, List.mem_append_right _ (List.mem_singleton_self m),
            List.mem_singleton.1 hnew ▸ .refl m⟩
      · exact Known.mono (h.held deps run (hrun ▸ hr) x hx)
      · obtain ⟨m₀, hm₀, t, hsent⟩ := h.sent r (hsame ▸ hr)
        exact ⟨m₀, List.mem_append_left _ hm₀, t, hsent⟩
      · rw [hsame]
        exact h.last deps x rest (hwaits deps x rest hr)
  · rw [hkept hcarries, List.append_nil]
    have hwaits : d.phone.WaitsOn d'.phone := by
      intro deps m rest hwaiting
      rcases hrun with hrun | hnone
      · exact hrun ▸ hwaiting
      · cases hnone.symm.trans hwaiting
    obtain ⟨hok, hprefix⟩ := device_carries h hcarries (.inl ⟨hsame, hwaits⟩)
    exact ⟨hok, hprefix, .inl rfl⟩

/-! ## The server -/

variable {l l' : Link} {pid pid' : Nat}

/-- Documents stay where they come from, with more rows and more keys. -/
theorem Traced.mono {db db' : Db} {ever ever' : List QueuedMutation} {foreign foreign' : List String}
    (h : Traced bodies db ever foreign) (hever : ever ⊆ ever') (hforeign : foreign ⊆ foreign')
    (howned : ∀ (k : Kind) e input, k.Owned db e input → k.Owned db' e input)
    (hproducts : ∀ e id, OwnedProduct db e id → OwnedProduct db' e id)
    (hrows : ∀ (k : Kind), ∀ row' ∈ k.rows db', (∃ row ∈ k.rows db, columns row = columns row') ∨
      ∀ key, DocumentRow.idempotencyKey row' = some key → key ∈ foreign' ∨
        ∃ m ∈ ever', m.idempotencyKey = key ∧ MadeFor bodies db' m k row')
    (hmovements : ∀ x ∈ db'.movements, x ∈ db.movements ∨
      ∀ key, x.idempotencyKey = some key → key ∈ foreign' ∨
        ∃ m ∈ ever', m.idempotencyKey = key ∧ MovedFor bodies db' m x) :
    Traced bodies db' ever' foreign' where
  rows k row' hrow' key hkey := by
    rcases hrows k row' hrow' with ⟨row, hrow, hcolumns⟩ | hnew
    · simp only [columns, Prod.mk.injEq] at hcolumns
      rcases h.rows k row hrow key (hcolumns.2.2.1.trans hkey) with
        hf | ⟨m, hm, hmkey, t, c, hargs, howner, ho⟩
      · exact .inl (hforeign hf)
      · exact .inr ⟨m, hever hm, hmkey, t, c, hargs, hcolumns.2.1 ▸ howner, howned k _ _ ho⟩
    · exact hnew key hkey
  movements x hx key hkey := by
    rcases hmovements x hx with hold | hnew
    · rcases h.movements x hold key hkey with
        hf | ⟨m, hm, hmkey, t, e, input, key', hargs, howner, ho⟩
      · exact .inl (hforeign hf)
      · exact .inr ⟨m, hever hm, hmkey, t, e, input, key', hargs, howner, hproducts _ _ ho⟩
    · exact hnew key hkey

/-- A step of a call: its documents are traced to its request. -/
theorem run_ok {a : Attempt} {input : Input} {s' : ErpStore} {call' : Call} (hI : LinkOk bodies l)
    (hQ : AttemptKnows bodies pid (some a) l) (hst : a.call.step pid input l.store = some (s', call')) :
    LinkOk bodies { l with store := s' } ∧
      AttemptKnows bodies pid (some { a with call := call' }) { l with store := s' } ∧
      ServerSide pid l { l with store := s' } := by
  obtain ⟨hknows, hrequest⟩ := hQ a rfl
  obtain ⟨hstep, hargs⟩ := call_step hI.indexes hknows hst
  refine ⟨⟨hI.keys, hI.nonempty, hI.foreign, hI.phone, hstep.indexes, ?_⟩, ?_,
    ⟨rfl, rfl, List.Subset.refl _, hstep.step⟩⟩
  · -- a key of the call is foreign, or that of the row its request was sent for
    have hkey : ∀ key, call'.arguments.idempotencyKey = some key → key ∈ l.foreign ∨
        ∃ m ∈ l.ever, m.idempotencyKey = key ∧
          ∃ t, (m.request t).arguments bodies = some call'.arguments := by
      intro key hkey
      rw [hargs] at hkey ⊢
      cases hreq : a.request with
      | none =>
        rw [hreq] at hrequest
        exact .inl (hrequest key hkey)
      | some i =>
        rw [hreq] at hrequest
        obtain ⟨r, hr, harguments⟩ := hrequest
        obtain ⟨m, hm, t, rfl⟩ := hI.phone.sent r (List.mem_of_getElem? hr)
        have hmkey := (arguments_key harguments).symm.trans hkey
        exact .inr ⟨m, hm, Option.some.inj hmkey, t, harguments⟩
    refine hI.traced.mono (List.Subset.refl _) (List.Subset.refl _) hstep.step.owned
      hstep.step.products (fun k row' hrow' => ?_) fun x hx => ?_
    · refine (hstep.creates.rows k row' hrow').imp_right ?_
      rintro ⟨c, hcall, howner, hrowKey, ho⟩ key hrowKey'
      rw [hcall] at hkey
      refine (hkey key (hrowKey.symm.trans hrowKey')).imp_right ?_
      rintro ⟨m, hm, hmkey, t, harguments⟩
      exact ⟨m, hm, hmkey, t, c, harguments, howner, ho⟩
    · refine (hstep.creates.movements x hx).imp_right ?_
      rintro ⟨e, input, key', hcall, howner, hrowKey, ho⟩ key hrowKey'
      rw [hcall] at hkey
      refine (hkey key (hrowKey.symm.trans hrowKey')).imp_right ?_
      rintro ⟨m, hm, hmkey, t, harguments⟩
      exact ⟨m, hm, hmkey, t, e, input, key', harguments, howner, ho⟩
  · rintro x ⟨⟩
    exact ⟨hstep.knows, by rw [hargs]; exact hrequest⟩

theorem call_arguments (args : Arguments) : args.call.arguments = args := by cases args <;> rfl

theorem call_knows (args : Arguments) (s : ErpStore) : args.call.Knows pid s := by
  cases args <;> trivial

/-- A request arrives. -/
theorem arrive_ok {i : Nat} {args : Arguments} (hI : LinkOk bodies l)
    (h : (l.device.phone.requests[i]?).bind (Request.arguments bodies) = some args) :
    LinkOk bodies l ∧ AttemptKnows bodies pid (some ⟨some i, args.call⟩) l ∧ ServerSide pid l l := by
  refine ⟨hI, ?_, rfl, rfl, List.Subset.refl _, .of_db (.of_eq rfl) rfl⟩
  rintro x ⟨⟩
  obtain ⟨r, hr, hargs⟩ := Option.bind_eq_some_iff.1 h
  exact ⟨call_knows args _, r, hr, hargs.trans (congrArg some (call_arguments args).symm)⟩

/-- Another client calls. -/
theorem other_ok {args : Arguments} (hI : LinkOk bodies l)
    (hdistinct : ∀ key, args.idempotencyKey = some key →
      key ∉ l.ever.map QueuedMutation.idempotencyKey) :
    LinkOk bodies { l with foreign := args.idempotencyKey.toList ++ l.foreign } ∧
      AttemptKnows bodies pid (some ⟨none, args.call⟩)
        { l with foreign := args.idempotencyKey.toList ++ l.foreign } ∧
      ServerSide pid l { l with foreign := args.idempotencyKey.toList ++ l.foreign } := by
  have hsub : l.foreign ⊆ args.idempotencyKey.toList ++ l.foreign := List.subset_append_right ..
  refine ⟨⟨hI.keys, hI.nonempty, fun m hm hmem => ?_, hI.phone, hI.indexes, ?_⟩, ?_, rfl, rfl, hsub,
    .of_db (.of_eq rfl) rfl⟩
  · rcases List.mem_append.1 hmem with hnew | hold
    · exact hdistinct _ (Option.mem_toList.1 hnew) (List.mem_map_of_mem hm)
    · exact hI.foreign m hm hold
  · exact hI.traced.mono (List.Subset.refl _) hsub (fun _ _ _ ho => ho) (fun _ _ ho => ho)
      (fun k row hrow => .inl ⟨row, hrow, rfl⟩) fun x hx => .inl hx
  · rintro x ⟨⟩
    refine ⟨call_knows args _, fun key hkey => ?_⟩
    rw [call_arguments] at hkey
    exact List.mem_append_left _ (Option.mem_toList.2 hkey)

theorem ServerSide.knows {a : Option Attempt} (h : ServerSide pid l l') (hne : pid ≠ pid')
    (hQ : AttemptKnows bodies pid' a l) : AttemptKnows bodies pid' a l' := by
  intro x hx
  obtain ⟨hknows, hrequest⟩ := hQ x hx
  refine ⟨h.store.knows hne hknows, ?_⟩
  cases hreq : x.request with
  | none =>
    rw [hreq] at hrequest
    exact fun key hkey => h.foreign (hrequest key hkey)
  | some i =>
    rw [hreq] at hrequest
    simp only [h.device]
    exact hrequest

/-- A step of the device. -/
theorem outside_device {a : DeviceAction} (hI : LinkOk bodies l)
    (hdistinct : ∀ input key isOnline, a = .app (.enqueueMutation input key isOnline) →
      key ≠ "" ∧ key ∉ l.ever.map QueuedMutation.idempotencyKey ∧ key ∉ l.foreign) :
    LinkOk bodies (l.outside (.device a)) ∧ ∀ pid t, AttemptKnows bodies pid t l →
      AttemptKnows bodies pid t (l.outside (.device a)) := by
  simp only [Link.outside]
  split
  · exact ⟨hI, fun pid t hQ => hQ⟩
  · rename_i d hst
    obtain ⟨hphone, hprefix, hinserted⟩ := device_step hI.phone hst
    have hnew : ∀ m ∈ inserted l.device d, m.idempotencyKey ≠ "" ∧
        m.idempotencyKey ∉ l.ever.map QueuedMutation.idempotencyKey ∧
        m.idempotencyKey ∉ l.foreign := by
      intro m hm
      rcases hinserted with hnone | ⟨m', input, isOnline, hone, ha⟩
      · rw [hnone] at hm
        cases hm
      · rw [hone] at hm
        rw [List.mem_singleton.1 hm]
        exact hdistinct input _ isOnline ha
    have hnodup : ((inserted l.device d).map QueuedMutation.idempotencyKey).Nodup := by
      rcases hinserted with hnone | ⟨m', input, isOnline, hone, -⟩
      · rw [hnone]
        exact List.nodup_nil
      · rw [hone]
        exact List.nodup_singleton _
    have hsub : l.ever ⊆ l.ever ++ inserted l.device d := List.subset_append_left ..
    refine ⟨⟨?_, fun m hm => ?_, fun m hm => ?_, hphone, hI.indexes, ?_⟩, fun pid t hQ x hx => ?_⟩
    · rw [List.map_append, List.nodup_append]
      refine ⟨hI.keys, hnodup, fun key hkey key' hkey' heq => ?_⟩
      obtain ⟨m, hm, rfl⟩ := List.mem_map.1 hkey'
      exact (hnew m hm).2.1 (heq ▸ hkey)
    · exact (List.mem_append.1 hm).elim (hI.nonempty m) fun h => (hnew m h).1
    · exact (List.mem_append.1 hm).elim (hI.foreign m) fun h => (hnew m h).2.2
    · exact hI.traced.mono hsub (List.Subset.refl _) (fun _ _ _ ho => ho) (fun _ _ ho => ho)
        (fun k row hrow => .inl ⟨row, hrow, rfl⟩) fun x hx => .inl hx
    · obtain ⟨hknows, hrequest⟩ := hQ x hx
      refine ⟨hknows, ?_⟩
      cases hreq : x.request with
      | none =>
        rw [hreq] at hrequest
        exact hrequest
      | some i =>
        rw [hreq] at hrequest
        obtain ⟨r, hr, hargs⟩ := hrequest
        obtain ⟨new, hsent⟩ := hprefix
        refine ⟨r, ?_, hargs⟩
        simp only
        rw [← hsent, List.getElem?_append_left (List.getElem?_eq_some_iff.1 hr).1, hr]

/-- Another module writes. -/
theorem outside_beside (x : Beside) (hI : LinkOk bodies l) :
    LinkOk bodies (l.outside (.beside x)) ∧ ∀ pid t, AttemptKnows bodies pid t l →
      AttemptKnows bodies pid t (l.outside (.beside x)) := by
  refine ⟨⟨hI.keys, hI.nonempty, hI.foreign, hI.phone, x.indexes hI.indexes, ?_⟩,
    fun pid t hQ => ?_⟩
  · refine hI.traced.mono (List.Subset.refl _) (List.Subset.refl _) (x.owned _) (x.products _)
      (fun k row' hrow' => .inl ?_) fun y hy => ?_
    · obtain ⟨f, hf, hrows⟩ := x.rows l.store.db k
      have hmem : row' ∈ (k.rows l.store.db).map f := hrows ▸ hrow'
      obtain ⟨row, hrow, rfl⟩ := List.mem_map.1 hmem
      exact ⟨row, hrow, (hf row).symm⟩
    · obtain ⟨new, hnew, hnone⟩ := x.movements l.store.db
      have hmem : y ∈ l.store.db.movements ++ new := hnew ▸ hy
      refine (List.mem_append.1 hmem).imp_right fun hy key hkey => ?_
      rw [hnone y hy] at hkey
      cases hkey
  · have hside : ServerSide (pid + 1) l (l.outside (.beside x)) :=
      ⟨rfl, rfl, List.Subset.refl _, x.step (pid + 1)⟩
    exact hside.knows (Nat.succ_ne_self pid) hQ

variable (bodies) in
/-- The outline of the exchange. -/
theorem exchange : Outline (link bodies) Exchange (LinkOk bodies)
    (fun pid a l => AttemptKnows bodies pid a l) ServerSide where
  own P pid feed l t hK hI hQ hst := by
    simp only [link] at hst
    cases hthread : P.threads pid with
    | none =>
      rw [hthread] at hst
      cases feed with
      | arrive i =>
        obtain ⟨args, hargs, hres⟩ := Option.map_eq_some_iff.1 hst
        cases hres
        exact arrive_ok hI hargs
      | other args =>
        cases hst
        exact other_ok hI hK.1
      | run input => cases hst
    | some a =>
      rw [hthread] at hst hQ
      cases feed with
      | run input =>
        obtain ⟨r, hr, hres⟩ := Option.map_eq_some_iff.1 hst
        cases hres
        exact run_ok hI hQ hr
      | arrive i => cases hst
      | other args => cases hst
  stable pid pid' l l' a hne _ _ hG hQ := hG.knows hne hQ
  env P x hK hI := by
    cases x with
    | device a =>
      refine outside_device hI fun input key isOnline ha => ?_
      subst ha
      exact hK.1
    | beside x => exact outside_beside x hI

/-! ## The result -/

theorem same_of_key (hI : LinkOk bodies l) (hm : m ∈ l.ever) (hm' : m' ∈ l.ever)
    (h : m'.idempotencyKey = m.idempotencyKey) : m' = m :=
  List.inj_on_of_nodup_map hI.keys hm' hm h

/-- A row of the database with the key of `m` was created for `m`. -/
theorem madeFor_of_key (hI : LinkOk bodies l) (hm : m ∈ l.ever) {k : Kind} {row : k.Row}
    (hrow : row ∈ k.rows l.store.db)
    (hkey : DocumentRow.idempotencyKey row = some m.idempotencyKey) :
    MadeFor bodies l.store.db m k row := by
  rcases hI.traced.rows k row hrow _ hkey with hforeign | ⟨m', hm', hsame, hmade⟩
  · exact absurd hforeign (hI.foreign m hm)
  · exact same_of_key hI hm hm' hsame ▸ hmade

theorem movedFor_of_key (hI : LinkOk bodies l) (hm : m ∈ l.ever) {x : StockMovement}
    (hx : x ∈ l.store.db.movements) (hkey : x.idempotencyKey = some m.idempotencyKey) :
    MovedFor bodies l.store.db m x := by
  rcases hI.traced.movements x hx _ hkey with hforeign | ⟨m', hm', hsame, hmoved⟩
  · exact absurd hforeign (hI.foreign m hm)
  · exact same_of_key hI hm hm' hsame ▸ hmoved

/-- Two rows created for one mutation have one enterprise. -/
theorem MadeFor.enterprise {db : Db} {k : Kind} {row row' : k.Row}
    (h : MadeFor bodies db m k row) (h' : MadeFor bodies db m k row') :
    DocumentRow.enterpriseId row = DocumentRow.enterpriseId row' := by
  obtain ⟨t, c, hargs, howner, howned⟩ := h
  obtain ⟨t', c', hargs', howner', howned'⟩ := h'
  have hinput : bodies.create k m.body = some c.input := (arguments_create hargs).2
  have hinput' : bodies.create k m.body = some c'.input := (arguments_create hargs').2
  rw [Option.some.inj (hinput.symm.trans hinput')] at howned
  rw [howner, howner', howned.unique howned']

theorem MovedFor.enterprise {db : Db} {x y : StockMovement}
    (h : MovedFor bodies db m x) (h' : MovedFor bodies db m y) :
    x.enterpriseId = y.enterpriseId := by
  obtain ⟨t, e, input, key, hargs, howner, p, hp, hpe⟩ := h
  obtain ⟨t', e', input', key', hargs', howner', p', hp', hpe'⟩ := h'
  have hinput : bodies.movement m.body = some input := (arguments_movement hargs).2
  have hinput' : bodies.movement m.body = some input' := (arguments_movement hargs').2
  rw [Option.some.inj (hinput.symm.trans hinput')] at hp
  rw [howner, howner', ← hpe, ← hpe', Option.some.inj (hp.symm.trans hp')]

theorem length_le_one {α : Type} {xs : List α} (h : xs.Pairwise fun _ _ => False) :
    xs.length ≤ 1 := by
  match xs with
  | [] => exact Nat.zero_le 1
  | [_] => exact le_refl 1
  | _ :: y :: _ => exact ((List.pairwise_cons.1 h).1 y List.mem_cons_self).elim

/-- The documents with the key of `m`: of one kind, of one enterprise, so the index leaves one. -/
theorem at_most_one (hI : LinkOk bodies l) (hm : m ∈ l.ever) :
    (l.store.db.createdWith m.idempotencyKey).length ≤ 1 := by
  have hmade : ∀ (k : Kind), ∀ row ∈ (k.rows l.store.db).filter fun r =>
      DocumentRow.idempotencyKey r = some m.idempotencyKey,
      DocumentRow.idempotencyKey row = some m.idempotencyKey ∧
        MadeFor bodies l.store.db m k row := by
    intro k row hrow
    obtain ⟨hmem, hkey⟩ := List.mem_filter.1 hrow
    have hkey' := of_decide_eq_true hkey
    exact ⟨hkey', madeFor_of_key hI hm hmem hkey'⟩
  have hmoved : ∀ x ∈ l.store.db.movements.filter fun x =>
      x.idempotencyKey = some m.idempotencyKey,
      x.idempotencyKey = some m.idempotencyKey ∧ MovedFor bodies l.store.db m x := by
    intro x hx
    obtain ⟨hmem, hkey⟩ := List.mem_filter.1 hx
    have hkey' := of_decide_eq_true hkey
    exact ⟨hkey', movedFor_of_key hI hm hmem hkey'⟩
  have hendpoint : ∀ (k : Kind) (row : k.Row), MadeFor bodies l.store.db m k row →
      endpointOf m.path = some (.create k) := by
    rintro k row ⟨t, c, hargs, -⟩
    exact (arguments_create hargs).1
  refine length_le_one (List.pairwise_append.2 ⟨List.pairwise_flatMap.2 ⟨fun k _ => ?_, ?_⟩, ?_, ?_⟩)
  · -- two documents of one kind have one index entry
    rw [List.pairwise_map]
    have hindexed : (k.rows l.store.db).Pairwise fun a b => Repository.sameEntry a b = false :=
      hI.indexes.rows k
    refine (hindexed.filter _).imp_of_mem fun {a b} ha hb hab => ?_
    obtain ⟨hkey, hfor⟩ := hmade k a ha
    obtain ⟨hkey', hfor'⟩ := hmade k b hb
    simp [Repository.sameEntry, hfor.enterprise hfor', hkey, hkey'] at hab
  · have hkinds : Kind.all.Pairwise (· ≠ ·) := by decide
    refine hkinds.imp fun {k k'} hne x hx y hy => ?_
    obtain ⟨a, ha, -⟩ := List.mem_map.1 hx
    obtain ⟨b, hb, -⟩ := List.mem_map.1 hy
    have hpath := (hendpoint k a (hmade k a ha).2).symm.trans (hendpoint k' b (hmade k' b hb).2)
    cases hpath
    exact hne rfl
  · rw [List.pairwise_map]
    refine (hI.indexes.movements.filter _).imp_of_mem fun {a b} ha hb hab => ?_
    obtain ⟨hkey, hfor⟩ := hmoved a ha
    obtain ⟨hkey', hfor'⟩ := hmoved b hb
    have hnone := hab (hfor.enterprise hfor') (hkey.trans hkey'.symm)
    rw [hkey] at hnone
    cases hnone
  · intro x hx y hy
    obtain ⟨k, -, hmem⟩ := List.mem_flatMap.1 hx
    obtain ⟨a, ha, -⟩ := List.mem_map.1 hmem
    obtain ⟨b, hb, -⟩ := List.mem_map.1 hy
    obtain ⟨t, e, input, key, hargs, -⟩ := (hmoved b hb).2
    have hpath := (hendpoint k a (hmade k a ha).2).symm.trans (arguments_movement hargs).1
    cases hpath

theorem createdWith_ne_nil {db : Db} {key : String} : db.createdWith key ≠ [] ↔
    (∃ k : Kind, ∃ row ∈ k.rows db, DocumentRow.idempotencyKey row = some key) ∨
      ∃ x ∈ db.movements, x.idempotencyKey = some key := by
  have hall : ∀ k : Kind, k ∈ Kind.all := by intro k; cases k <;> decide
  simp [Db.createdWith, hall, or_iff_not_imp_left]

/-- The call that has returned has left a document with its key. -/
theorem created_of_returned {call : Call} {s : ErpStore} {key : String} (hk : call.Knows pid s)
    (hreturned : call.Returned) (hkey : call.arguments.idempotencyKey = some key) (hne : key ≠ "") :
    s.db.createdWith key ≠ [] := by
  rw [createdWith_ne_nil]
  have htruthy : truthy (some key) = some key := by simp [truthy, Option.filter, hne]
  cases call with
  | create k c st =>
    cases st with
    | finished r =>
      cases r with
      | ok v =>
        have hhas : k.HasKey s.db c.enterpriseId c.idempotencyKey := hk
        have hargument : c.idempotencyKey = some key := hkey
        obtain ⟨row, hrow, -, hrowKey⟩ := hhas key (by rw [hargument, htruthy])
        exact .inl ⟨k, row, hrow, hrowKey⟩
      | error err => exact hreturned.elim
    | _ => exact hreturned.elim
  | movement e input key' r =>
    cases r with
    | none => exact hreturned.elim
    | some r =>
      cases r with
      | error err => exact hreturned.elim
      | ok v =>
        have hargument : key' = some key := hkey
        obtain ⟨x, hx, -, hxKey⟩ := hk key (by rw [hargument, htruthy])
        exact .inr ⟨x, hx, hxKey⟩

/-- A document stays. -/
theorem created_step {s s' : ErpStore} {key : String} (h : ServerStep pid s s')
    (hc : s.db.createdWith key ≠ []) : s'.db.createdWith key ≠ [] := by
  rw [createdWith_ne_nil] at hc ⊢
  rcases hc with ⟨k, row, hrow, hkey⟩ | ⟨x, hx, hkey⟩
  · obtain ⟨row', hrow', hcolumns⟩ := (h.rows k).keeps hrow
    simp only [columns, Prod.mk.injEq] at hcolumns
    exact .inl ⟨k, row', hrow', hcolumns.2.2.1.trans hkey⟩
  · exact .inr ⟨x, h.movements.subset hx, hkey⟩

variable {P₀ P P' : LinkPool}

theorem LinkStarts.annotated (h : LinkStarts P) :
    Annotated (LinkOk bodies) (fun pid a l => AttemptKnows bodies pid a l) P := by
  have hkeys : ∀ key, key ∉ P.shared.foreign →
      ¬ ((∃ k : Kind, ∃ row ∈ k.rows P.shared.store.db, DocumentRow.idempotencyKey row = some key) ∨
        ∃ x ∈ P.shared.store.db.movements, x.idempotencyKey = some key) := by
    intro key hkey hsome
    exact createdWith_ne_nil.2 hsome (h.foreign key hkey)
  refine ⟨⟨?_, ?_, ?_, ⟨h.device.queueOk, ?_, ?_, ?_, ?_⟩, h.indexes, ⟨?_, ?_⟩⟩, fun pid a ha => ?_⟩
  · rw [h.ever]
    exact List.nodup_nil
  · rw [h.ever]
    exact fun m hm => absurd hm List.not_mem_nil
  · rw [h.ever]
    exact fun m hm => absurd hm List.not_mem_nil
  · rw [h.queue]
    exact fun m hm => absurd hm List.not_mem_nil
  · intro deps run hrun
    rw [h.device.processing] at hrun
    cases hrun
  · rw [h.requests]
    exact fun r hr => absurd hr List.not_mem_nil
  · intro deps m rest hrun
    rw [h.device.processing] at hrun
    cases hrun
  · intro k row hrow key hkey
    by_contra hnot
    exact hkeys key (fun hmem => hnot (.inl hmem)) (.inl ⟨k, row, hrow, hkey⟩)
  · intro x hx key hkey
    by_contra hnot
    exact hkeys key (fun hmem => hnot (.inl hmem)) (.inr ⟨x, hx, hkey⟩)
  · rw [h.threads pid] at ha
    cases ha

/-- A document of a row stays, from one state of a run to the later ones. -/
theorem created_run {key : String} (h0 : LinkStarts P₀)
    (hr : Reach (link bodies).system Exchange P₀ P) (hm : m ∈ P.shared.ever)
    (hc : P.shared.store.db.createdWith key ≠ [])
    (hr' : Reach (link bodies).system Exchange P P') :
    m ∈ P'.shared.ever ∧ P'.shared.store.db.createdWith key ≠ [] := by
  refine hr'.inv (fun P' => m ∈ P'.shared.ever ∧ P'.shared.store.db.createdWith key ≠ [])
    ⟨hm, hc⟩ ?_
  rintro P₁ a P₂ hr₁ ⟨hm₁, hc₁⟩ hK hst
  cases a with
  | run pid feed =>
    have hstep := (exchange bodies).guarantee h0.annotated (hr.trans hr₁) hK hst
    exact ⟨hstep.ever ▸ hm₁, created_step hstep.store hc₁⟩
  | env x =>
    obtain rfl := Machine.env_eq_some.1 hst
    cases x with
    | device a =>
      simp only [link, Link.outside]
      split
      · exact ⟨hm₁, hc₁⟩
      · exact ⟨List.mem_append_left _ hm₁, hc₁⟩
    | beside x => exact ⟨hm₁, created_step (x.step 0) hc₁⟩

/-- A creation that is answered 2xx has left a document with the key of its row. -/
theorem created_of_answer {deps : ProcessQueueDeps} {rest : List QueuedMutation} {r : Response}
    (h : Annotated (LinkOk bodies) (fun pid a l => AttemptKnows bodies pid a l) P)
    (hrun : P.shared.device.phone.processing = some (deps, .waiting m rest)) (hm : m.Financial)
    (hok : r.ok = true) (hK : ServerAnswers P (.env (.device (.app (.respond (some r)))))) :
    P.shared.store.db.createdWith m.idempotencyKey ≠ [] := by
  obtain ⟨hI, hQ⟩ := h
  obtain ⟨m₀, hm₀, hsame⟩ := hI.phone.held deps _ hrun m List.mem_cons_self
  obtain ⟨pid, a, ha, hreturned, hrequest⟩ := hK hok deps m rest hrun hm
  obtain ⟨hknows, hserves⟩ := hQ pid a ha
  rw [hrequest] at hserves
  obtain ⟨req, hreq, hargs⟩ := hserves
  obtain ⟨t, hlast⟩ := hI.phone.last deps m rest hrun
  rw [List.getLast?_eq_getElem?, hreq] at hlast
  obtain rfl := Option.some.inj hlast
  exact created_of_returned hknows hreturned (arguments_key hargs)
    (hsame.key ▸ hI.nonempty m₀ hm₀)

/-- A queued creation is at most one document, and exactly one when its row is done. -/
theorem exactly_once (bodies : Bodies) {P₀ : LinkPool} (h0 : LinkStarts P₀) :
    ExactlyOnce bodies P₀ where
  atMostOnce P m hr hm := at_most_one ((exchange bodies).sound h0.annotated hr).1 hm
  done P deps m rest r P' P'' hr hrun hm hok hK hst hr' := by
    have hsound := (exchange bodies).sound h0.annotated hr
    have hcreated := created_of_answer hsound hrun hm hok hK.2
    obtain ⟨m₀, hm₀, hsame⟩ := hsound.1.phone.held deps _ hrun m List.mem_cons_self
    have hlater : Reach (link bodies).system Exchange P P'' := (Reach.step .init hK hst).trans hr'
    obtain ⟨hm', hcreated'⟩ := created_run h0 hr hm₀ hcreated hlater
    have hmost := at_most_one ((exchange bodies).sound h0.annotated (hr.trans hlater)).1 hm'
    rw [hsame.key] at hmost
    have hleast := List.length_pos_iff.2 hcreated'
    omega

/-- The body of `sampleSale`. -/
def sampleBody : String :=
  "\x7b\"customerId\":2,\"lines\":[\x7b\"productId\":3,\"quantity\":2\x7d]\x7d"

def sampleBodies : Bodies where
  create
    | .sale, body => if body = some sampleBody then some sampleSale.input else none
    | _, _ => none
  movement _ := none

/-- A new device, and the database of one enterprise. -/
def linkPool : LinkPool where
  shared :=
    { device :=
        { phone := { queue := Table.empty, nextId := 1 }, refreshToken := none, restore := none }
      store := { db := sampleDb, lock := fun _ => none } }
  threads _ := none

theorem linkPool_starts : LinkStarts linkPool where
  device := ⟨rfl, rfl, fun _ hm => absurd hm List.not_mem_nil⟩
  queue := rfl
  requests := rfl
  ever := rfl
  indexes := ⟨fun k => by cases k <;> exact List.Pairwise.nil, List.Pairwise.nil⟩
  foreign _ _ := rfl
  threads _ := rfl

theorem exactly_once_sample : ExactlyOnce sampleBodies linkPool :=
  exactly_once sampleBodies linkPool_starts

/-- The answer to the first request is lost after the commit; the second request finds the sale. -/
example :
    let device (a : DeviceAction) : Act Feed Outside := .env (.device a)
    let app (as : List Action) : List (Act Feed Outside) := as.map fun a => device (.app a)
    let serve (pid i n : Nat) : List (Act Feed Outside) :=
      .run pid (.arrive i) :: List.replicate n (.run pid (.run (.proceed ⟨10 * (pid + 1), id⟩)))
    let signIn := [.start, .storage, .storage].map device ++
      app [.login, .establishSession (some 1), .render]
    let sell := app [.enqueueMutation ⟨.post, "/sales", some sampleBody, none⟩ "k" true, .hook 0,
      .proceed, .proceed]
    (exec (link sampleBodies).system (fun _ _ => true) linkPool
        (signIn ++ sell ++ serve 0 0 6 ++ app [.respond none, .proceed, .syncEngine, .proceed,
          .proceed] ++ serve 1 1 1 ++ app [.respond (some ⟨201, none⟩)])).map
      (fun P => (P.shared.store.db.createdWith "k", P.shared.device.phone.queue.rows.length)) =
      some ([(.create .sale, 10)], 0) := by
  decide +kernel

end Gescom.Mobile
