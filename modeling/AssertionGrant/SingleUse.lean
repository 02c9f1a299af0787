import AssertionGrant.Site

/-!
The guard in front of the replay records: it stops when the request is done, and turns a storage
that fails into a server error whose detail is the failure's text.
-/

namespace AssertionGrant.SingleUse

/-- Whether an identifier was accepted before and its record is live, in the words of the
storage. -/
def isUsed (jti : Text) : Act Json := do
  Act.checkContext
  tryCatch (Act.isUsed jti) fun
    | .refusal r => throw (.refusal r)
    | .fault f => do
      Act.note (.lookupFailed jti f.text)
      throw (.internal f.text)

def mark (jti : Text) (expiry : Instant) : Act Unit := do
  Act.checkContext
  tryCatch (Act.mark jti expiry) fun
    | .refusal r => do
      if r.kind = .replayed then Act.note (.markRefused jti)
      throw (.refusal r)
    | .fault f => do
      Act.note (.markFailed jti f.text)
      throw (.internal f.text)

end AssertionGrant.SingleUse
