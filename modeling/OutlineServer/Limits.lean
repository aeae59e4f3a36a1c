import OutlineServer.Text.Basic

/-!
# Size limits

Documents are measured in octets of their UTF-8 form before they are read, and answers in octets
before they are sent.  What exceeds its limit is refused with a reason and a hint.  A document that
has no UTF-8 form cannot be measured at all.
-/
namespace OutlineServer

structure Limits where
  documentBytes : Int := 1024 * 1024
  responseBytes : Int := 1024 * 1024
deriving DecidableEq

inductive Refusal where
  | documentTooLarge
  | responseTooLarge
deriving DecidableEq

namespace Refusal

def reason : Refusal → Text
  | documentTooLarge => "Document exceeds max_document_bytes limit."
  | responseTooLarge => "Response exceeds max_total_bytes_per_response limit."

def hint : Refusal → Text
  | documentTooLarge => "Send a smaller document or raise limits.max_document_bytes."
  | responseTooLarge => "Split the document or raise limits.max_total_bytes_per_response."

end Refusal

inductive DocumentFault where
  /-- It has no UTF-8 form. -/
  | unencodable
  | refused (refusal : Refusal)
deriving DecidableEq

namespace Limits

/-- Lets a document through whose UTF-8 form exists and is no longer than the limit. -/
def checkDocument (limits : Limits) (document : Text) : Except DocumentFault Unit :=
  if !document.isEncodable then .error .unencodable
  else if limits.documentBytes < document.utf8Size then .error (.refused .documentTooLarge)
  else .ok ()

end Limits

end OutlineServer
