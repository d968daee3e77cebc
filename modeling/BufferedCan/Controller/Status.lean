import BufferedCan.Controller.Setup
import BufferedCan.Register.Format

/-!
What a controller reports about itself, and the text of it.
-/

namespace BufferedCan

structure Report where
  name : String
  entries : List (String × String)
  deriving DecidableEq, Repr

namespace Report

def render (report : Report) : String := Text.record report.name report.entries

def renderLines (report : Report) : String := Text.recordLines report.name report.entries

def protocolStatus (word : UInt32) : Report where
  name := "ProtocolStatus"
  entries :=
    [("fltconf", Esr1.fltconf), ("synch", Esr1.synch), ("idle", Esr1.idle), ("tx", Esr1.tx),
      ("rx", Esr1.rx), ("txwrn", Esr1.txwrn), ("rxwrn", Esr1.rxwrn), ("bit1err", Esr1.bit1err),
      ("bit0err", Esr1.bit0err), ("ackerr", Esr1.ackerr), ("crcerr", Esr1.crcerr),
      ("frmerr", Esr1.frmerr), ("stferr", Esr1.stferr), ("boffint", Esr1.boffint),
      ("errint_fast", Esr1.errintFast)].map fun entry =>
        (entry.1, WordFormat.text entry.2 word)

def errorCounters (word : UInt32) : Report where
  name := "ErrorCounters"
  entries :=
    [("rec", Ecr.rxerrcnt), ("tec", Ecr.txerrcnt), ("rec_fast", Ecr.rxerrcntFast),
      ("tec_fast", Ecr.txerrcntFast)].map fun entry => (entry.1, WordFormat.text entry.2 word)

end Report

namespace Running

def protocolStatus : Program registers Report := do
  return .protocolStatus (← Register.esr1.read)

def errorCounters : Program registers Report := do
  return .errorCounters (← Register.ecr.read)

/-- The free running timer. Reading it also unlocks a receive buffer. -/
def timeStamp : Program registers Nat := do
  return Timer.timer.get (← Register.timer.read)

end Running

end BufferedCan
