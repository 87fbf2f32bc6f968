import InstanceConsole.Text.Numeral
import InstanceConsole.Web.Url.Error

/-!
# Why a fetch fails
-/

set_option autoImplicit false

namespace InstanceConsole

/-- What goes wrong between the client and the backend. -/
inductive RequestFault
  /-- The request for a URL cannot be made, since it is no URL to fetch from. -/
  | unfetchable (url : String)
  /-- No answer came to the request for a URL. -/
  | unanswered (url : String)
  /-- The body of a successful answer is not the document that it has to be. -/
  | undecodable
  deriving DecidableEq, Repr

def RequestFault.message : RequestFault → String
  | .unfetchable url => "builder error for url (" ++ url ++ ")"
  | .unanswered url => "error sending request for url (" ++ url ++ ")"
  | .undecodable => "error decoding response body"

inductive ClientError
  | invalidUrl (error : UrlError)
  | request (fault : RequestFault)
  /-- The backend answered with a status that is no success. -/
  | status (code : Nat) (body : String)
  deriving DecidableEq, Repr

def ClientError.message : ClientError → String
  | .invalidUrl error => "invalid base url: " ++ error.message
  | .request fault => "request failed: " ++ fault.message
  | .status code body => "unexpected status " ++ Numeral.text code ++ ": " ++ body

end InstanceConsole
