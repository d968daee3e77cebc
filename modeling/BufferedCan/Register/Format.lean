import BufferedCan.Register

/-!
The words of the register map as text: each format names the fields of a word in the order in which
they are shown, and says which of them software may write.
-/

namespace BufferedCan

namespace Text

def record (name : String) (fields : List (String × String)) : String :=
  name ++ " \x7b " ++ ", ".intercalate (fields.map fun entry => entry.1 ++ ": " ++ entry.2)
    ++ " \x7d"

def recordLines (name : String) (fields : List (String × String)) : String :=
  name ++ " \x7b\n" ++ String.join (fields.map fun entry =>
    "    " ++ entry.1 ++ ": " ++ entry.2 ++ ",\n") ++ "\x7d"

def tagged (name : String) (value : Nat) : String :=
  name ++ "(" ++ toString value ++ ")"

def ofBool : Bool → String
  | true => "true"
  | false => "false"

end Text

structure NamedField where
  name : String
  field : Field
  writable : Bool

structure WordFormat where
  name : String
  fields : List NamedField

namespace NamedField

def plain (name : String) (field : Field) : NamedField := ⟨name, field, true⟩

def readOnly (name : String) (field : Field) : NamedField := ⟨name, field, false⟩

end NamedField

namespace WordFormat

open NamedField

def find? (format : WordFormat) (name : String) : Option NamedField :=
  format.fields.find? fun entry => entry.name == name

def assign? (format : WordFormat) (name : String) (value : Nat) (word : UInt32) : Option UInt32 :=
  match format.find? name with
  | some ⟨_, field, true⟩ => some (field.set value word)
  | _ => none

def text (field : Field) (word : UInt32) : String :=
  if field.width = 1 then Text.ofBool (field.isSet word) else toString (field.get word)

def render (format : WordFormat) (word : UInt32) : String :=
  match format.fields with
  | [] => Text.tagged format.name word.toNat
  | fields => Text.record format.name
      ((".0", toString word.toNat) :: fields.map fun entry => (entry.name, text entry.field word))

def mcr : WordFormat := ⟨"Mcr",
  [plain "mdis" Mcr.mdis, plain "frz" Mcr.frz, plain "rfen" Mcr.rfen, plain "halt" Mcr.halt,
    readOnly "notrdy" Mcr.notrdy, plain "softrst" Mcr.softrst, readOnly "frzack" Mcr.frzack,
    plain "supv" Mcr.supv, readOnly "lpmack" Mcr.lpmack, plain "srxdis" Mcr.srxdis,
    plain "irmq" Mcr.irmq, plain "aen" Mcr.aen, plain "fden" Mcr.fden, plain "maxmb" Mcr.maxmb]⟩

def ctrl1 : WordFormat := ⟨"Ctrl1",
  [plain "presdiv" Ctrl1.presdiv, plain "rjw" Ctrl1.rjw, plain "pseg1" Ctrl1.pseg1,
    plain "pseg2" Ctrl1.pseg2, plain "boffmsk" Ctrl1.boffmsk, plain "errmsk" Ctrl1.errmsk,
    plain "clksrc" Ctrl1.clksrc, plain "lpb" Ctrl1.lpb, plain "smp" Ctrl1.smp,
    plain "boffrec" Ctrl1.boffrec, plain "tsyn" Ctrl1.tsyn, plain "lbuf" Ctrl1.lbuf,
    plain "lom" Ctrl1.lom, plain "propseg" Ctrl1.propseg]⟩

def timer : WordFormat := ⟨"Timer",
  [readOnly "timer" Timer.timer]⟩

def rxMgMask : WordFormat := ⟨"RxMgMask",
  [plain "mg" RxMgMask.mg]⟩

def ecr : WordFormat := ⟨"Ecr",
  [readOnly "rxerrcnt_fast" Ecr.rxerrcntFast, readOnly "txerrcnt_fast" Ecr.txerrcntFast,
    readOnly "rxerrcnt" Ecr.rxerrcnt, readOnly "txerrcnt" Ecr.txerrcnt]⟩

def esr1 : WordFormat := ⟨"Esr1",
  [readOnly "errovr" Esr1.errovr, readOnly "errint_fast" Esr1.errintFast,
    readOnly "boffdoneint" Esr1.boffdoneint, readOnly "synch" Esr1.synch,
    readOnly "twrnint" Esr1.twrnint, readOnly "rwrnint" Esr1.rwrnint,
    readOnly "bit1err" Esr1.bit1err, readOnly "bit0err" Esr1.bit0err,
    readOnly "ackerr" Esr1.ackerr, readOnly "crcerr" Esr1.crcerr, readOnly "frmerr" Esr1.frmerr,
    readOnly "stferr" Esr1.stferr, readOnly "txwrn" Esr1.txwrn, readOnly "rxwrn" Esr1.rxwrn,
    readOnly "idle" Esr1.idle, readOnly "tx" Esr1.tx, readOnly "fltconf" Esr1.fltconf,
    readOnly "rx" Esr1.rx, readOnly "boffint" Esr1.boffint, readOnly "errint" Esr1.errint]⟩

def imask1 : WordFormat := ⟨"Imask1", []⟩

def iflag1 : WordFormat := ⟨"Iflag1", []⟩

def ctrl2 : WordFormat := ⟨"Ctrl2",
  [plain "mrp" Ctrl2.mrp, plain "rrs" Ctrl2.rrs, plain "eacen" Ctrl2.eacen,
    plain "isocanfden" Ctrl2.isocanfden]⟩

def cbt : WordFormat := ⟨"Cbt",
  [plain "btf" Cbt.btf, plain "epresdiv" Cbt.epresdiv, plain "erjw" Cbt.erjw,
    plain "epropseg" Cbt.epropseg, plain "epseg1" Cbt.epseg1, plain "epseg2" Cbt.epseg2]⟩

def fdCtrl : WordFormat := ⟨"FdCtrl",
  [plain "fdrate" FdCtrl.fdrate, plain "mbdsr0" FdCtrl.mbdsr0, plain "tdcen" FdCtrl.tdcen,
    readOnly "tdcfail" FdCtrl.tdcfail, plain "tdcoff" FdCtrl.tdcoff,
    readOnly "tdcval" FdCtrl.tdcval]⟩

def fdCbt : WordFormat := ⟨"FdCbt",
  [plain "fpresdiv" FdCbt.fpresdiv, plain "frjw" FdCbt.frjw, plain "fpropseg" FdCbt.fpropseg,
    plain "fpseg1" FdCbt.fpseg1, plain "fpseg2" FdCbt.fpseg2]⟩

def mbCs : WordFormat := ⟨"MbCs",
  [plain "edl" MbCs.edl, plain "brs" MbCs.brs, plain "esi" MbCs.esi, plain "code" MbCs.code,
    plain "srr" MbCs.srr, plain "ide" MbCs.ide, plain "rtr" MbCs.rtr, plain "dlc" MbCs.dlc,
    readOnly "timestamp" MbCs.timestamp]⟩

def mbId : WordFormat := ⟨"MbId",
  [plain "prio" MbId.prio, plain "std_id" MbId.stdId, plain "ext_id" MbId.extId]⟩

def all : List WordFormat :=
  [mcr, ctrl1, timer, rxMgMask, ecr, esr1, imask1, iflag1, ctrl2, cbt, fdCtrl, fdCbt, mbCs, mbId]

def named? (name : String) : Option WordFormat :=
  all.find? fun format => format.name == name

theorem fields_disjoint (format : WordFormat) (known : format ∈ all) (plain : format.name ≠ "MbId") :
    format.fields.Pairwise fun first second => first.field.Disjoint second.field := by
  simp only [all, List.mem_cons, List.not_mem_nil, or_false] at known
  rcases known with rfl | rfl | rfl | rfl | rfl | rfl | rfl | rfl | rfl | rfl | rfl | rfl | rfl | rfl
  all_goals first | decide | exact absurd rfl plain

end WordFormat

end BufferedCan
