import Gescom.Lib.Url
import Gescom.Mobile.Queue

/-!
# The writes of the screens (`lib/queries/`, `lib/api.ts`)

A screen writes through a hook, which enqueues one mutation. `processQueue` sends it with `apiFetch`
to `API_URL` followed by its path.

| here | there |
| --- | --- |
| `MutationHook`, `MutationHook.input` | the hooks of `queries/use-*.ts`, up to `enqueueMutation` |
| `assertValidMutationPath` | `assertValidMutationPath` (`offline/mutation-queue.ts:27`) |
| `apiUrl` | `API_URL` (`api.ts:21`), and the checks before it |
| `requestUrl` | what `apiFetch` fetches (`:32`) |
-/

namespace Gescom.Mobile

/-! ## Hooks -/

def isUnreserved (c : Char) : Bool := c.isAlphanum || "-_.!~*'()".toList.contains c

def encodeURIComponent (s : String) : String :=
  String.ofList (s.toList.flatMap (Url.utf8PercentEncode (!isUnreserved ·)))

/-- Values are their JSON text. -/
def createInput (route values : String) : EnqueueMutationInput where
  method := .post
  path := route
  body := some values

/-- An empty identifier is falsy. -/
def saveInput (route : String) (id : Option String) (values : String) : EnqueueMutationInput :=
  match id.filter (· != "") with
  | some id =>
    { method := .patch, path := route ++ "/" ++ encodeURIComponent id, body := some values }
  | none => createInput route values

def deactivateInput (route id : String) : EnqueueMutationInput where
  method := .delete
  path := route ++ "/" ++ encodeURIComponent id

def actionInput (route id action : String) : EnqueueMutationInput where
  method := .post
  path := route ++ "/" ++ encodeURIComponent id ++ "/" ++ action

/-- A call of what a hook returns. -/
inductive MutationHook where
  | useSaveCustomer (customerId : Option String) (values : String)
  | useDeactivateCustomer (customerId : String)
  | useSaveSupplier (supplierId : Option String) (values : String)
  | useDeactivateSupplier (supplierId : String)
  | useSaveProduct (productId : Option String) (values : String)
  | useDeactivateProduct (productId : String)
  | useCreateStockMovement (values : String)
  | useCreatePurchase (values : String)
  | useConfirmPurchase (purchaseId : String)
  | useCancelPurchase (purchaseId : String)
  | useCreateSale (values : String)
  | useConfirmSale (saleId : String)
  | useCancelSale (saleId : String)
  | useCreateInvoice (values : String)
  | useMarkInvoicePaid (invoiceId : String)
  | useVoidInvoice (invoiceId : String)
  | useCreateAccount (values : String)
  | useCreateJournalEntry (values : String)

def MutationHook.input : MutationHook → EnqueueMutationInput
  | useSaveCustomer customerId values => saveInput "/customers" customerId values
  | useDeactivateCustomer customerId => deactivateInput "/customers" customerId
  | useSaveSupplier supplierId values => saveInput "/suppliers" supplierId values
  | useDeactivateSupplier supplierId => deactivateInput "/suppliers" supplierId
  | useSaveProduct productId values => saveInput "/products" productId values
  | useDeactivateProduct productId => deactivateInput "/products" productId
  | useCreateStockMovement values => createInput "/stock/movements" values
  | useCreatePurchase values => createInput "/purchases" values
  | useConfirmPurchase purchaseId => actionInput "/purchases" purchaseId "confirm"
  | useCancelPurchase purchaseId => actionInput "/purchases" purchaseId "cancel"
  | useCreateSale values => createInput "/sales" values
  | useConfirmSale saleId => actionInput "/sales" saleId "confirm"
  | useCancelSale saleId => actionInput "/sales" saleId "cancel"
  | useCreateInvoice values => createInput "/invoices" values
  | useMarkInvoicePaid invoiceId => actionInput "/invoices" invoiceId "mark-paid"
  | useVoidInvoice invoiceId => actionInput "/invoices" invoiceId "void"
  | useCreateAccount values => createInput "/accounting/accounts" values
  | useCreateJournalEntry values => createInput "/accounting/journal-entries" values

/-- The identifiers that become segments of the path. -/
def MutationHook.ids : MutationHook → List String
  | useSaveCustomer id _ | useSaveSupplier id _ | useSaveProduct id _ => id.toList
  | useDeactivateCustomer id | useDeactivateSupplier id | useDeactivateProduct id
  | useConfirmPurchase id | useCancelPurchase id | useConfirmSale id | useCancelSale id
  | useMarkInvoicePaid id | useVoidInvoice id => [id]
  | useCreateStockMovement _ | useCreatePurchase _ | useCreateSale _ | useCreateInvoice _
  | useCreateAccount _ | useCreateJournalEntry _ => []

/-! ## Requests -/

def assertValidMutationPath (path : String) : Except String Unit :=
  if validMutationPath path then .ok () else .error ("Chemin de mutation invalide : " ++ path)

/-- `dev` is `__DEV__`. The module throws when a production build has no URL, or one in clear. -/
def apiUrl (dev : Bool) (configuredApiUrl : Option String) : Except String String :=
  if !dev && configuredApiUrl.all (· == "") then
    .error "EXPO_PUBLIC_API_URL est requis en production"
  else if !dev && !configuredApiUrl.any (fun url => "https://".toList.isPrefixOf url.toList) then
    .error "EXPO_PUBLIC_API_URL doit utiliser https:// en production"
  else .ok (configuredApiUrl.getD "http://localhost:3000" ++ "/v1")

def requestUrl (base path : String) : String := base ++ path

end Gescom.Mobile
