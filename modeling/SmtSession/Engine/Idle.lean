import SmtSession.Engine.Basic

/-!
# The idle engine

Accepts everything and decides nothing.
-/

namespace SmtSession

structure Idle where

instance : Engine Idle where
  declareSort _ := pure ()
  declareConst _ _ := pure ()
  declareFun _ _ _ := pure ()
  push := pure ()
  pop := pure ()
  assertAxiom _ := pure ()
  assertConjecture _ := pure ()
  check := pure ⟨.undetermined, []⟩
  remark _ idle := idle
  saveTranscript _ idle := idle

end SmtSession
