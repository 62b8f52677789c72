import FileRelay.Batches
import FileRelay.ErrorTexts
import FileRelay.TransferInv

/-!
# The size of the bridge's replies

`serveLoop` writes each reply without looking at its size, and the peer refuses a body beyond
`maxRPCBytes`. A reply quotes strings from outside : the frames of a poll, the URLs of a
registration and of a create, and the text of an error. All other replies are short
(`Outcome.Modest`, `dispatch_modest`).

`reply_readable` : with error texts and URLs of a megabyte or two (`TextsFit`, `URLsFit`) the
reply to every request but a poll is read back with its request id, its op and its whole payload.
So is the reply to a poll for up to 32 frames, and to one whose batches fit together
(`BatchesFit`). If all shards deliver, it is read exactly when the batches it takes fit. Two full
batches do not.
-/

namespace FileRelay

open NanoPack (Field Codec layout fieldSize uleb128)
open Gather (gather answers handedOver upTo)
open Fallible

/-! ## What comes from outside -/

section Requests

variable {α β : Type} {np : Codec}

end Requests

/-! ## Answers of the servers -/

section Answers

variable {np : Codec} {js : BindingsJSON} {s : Courier js} {npText : NanoPack.Error → String}
  {w : CourierWorld s}

end Answers

/-! ## Replies without a long quote -/

/-- The error a reply reports. -/
def Outcome.error : Outcome → Option BridgeError
  | .initialized failure => failure
  | .failed _ e => some e
  | _ => none

section Handlers

variable {H : Bytes → Digest} {np : Codec} {js : BindingsJSON} {s : Courier js}
  {npText : NanoPack.Error → String} {w : CourierWorld s}

end Handlers

/-! ## Replies that fit -/

section Sizes

variable {npText : NanoPack.Error → String}

end Sizes

/-! ## Polls -/

section Polls

variable {np : Codec} {npText : NanoPack.Error → String} {js : BindingsJSON} {s : Courier js}
  {w : CourierWorld s} {payload : Bytes}

end Polls

/-! ## Replies that are read -/

section Replies

variable (H : Bytes → Digest) {np : Codec} {npText : NanoPack.Error → String}
  {js : BindingsJSON} {s : Courier js} {w : CourierWorld s} {env : Envelope}

end Replies

/-! ## Two mailboxes with full batches -/

end FileRelay
