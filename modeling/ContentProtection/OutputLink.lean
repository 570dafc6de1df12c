/-!
# Output links

What the platform says about the video output. It may say something else at any time, so a session asks anew whenever it decrypts. Content may require HDCP 2.2; the requirement only binds sources in ultra high definition.
-/

namespace ContentProtection

structure OutputLink where
  sourceUhd : Bool := false
  hdcp22 : Bool := false
  deriving DecidableEq, Repr

/-- Whether content with the given requirement must not be shown over the link. -/
def OutputLink.violates (link : OutputLink) (hdcp22Required : Bool) : Bool :=
  hdcp22Required && link.sourceUhd && !link.hdcp22

end ContentProtection
