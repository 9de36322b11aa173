import OpenApiClient.Client.Request
import OpenApiClient.Client.Response

/-! Exchanges: a request is made ready and sent, and a handler may take the response. What was sent stays
sent if the response cannot be handled. -/

namespace OpenApiClient.Client

inductive ExchangeFault where
  | request (fault : RequestFault)
  | response (fault : ResponseFault)
  deriving Repr, Inhabited

structure Exchange where
  sent : Option ReadyRequest
  handled : Option Handled
  result : Except ExchangeFault Int

def Request.exchange (request : Request) (classes : Classes) (body : Value) (contentType : String)
    (handler : Option Handler) (response : Response) : Exchange :=
  match request.ready classes body contentType with
  | .error fault => ⟨none, none, .error (.request fault)⟩
  | .ok ready =>
      match handler with
      | none => ⟨some ready, none, .ok response.status⟩
      | some handler =>
          match handler.handle classes response with
          | .error fault => ⟨some ready, none, .error (.response fault)⟩
          | .ok handled => ⟨some ready, some handled, .ok response.status⟩

end OpenApiClient.Client
