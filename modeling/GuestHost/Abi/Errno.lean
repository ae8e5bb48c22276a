/-
  GuestHost.Abi.Errno — result codes of the preview1 interface, numbered as in its published table.

  The constructors stand in the table's order, so a code's number is its position: numbers are distinct
  (`Errno.number_injective`), and as words they read back (`Errno.toNat_raw`).
-/

namespace GuestHost

inductive Errno where
  | success
  | tooBig
  | access
  | addrInUse
  | addrNotAvail
  | afNoSupport
  | again
  | already
  | badf
  | badMsg
  | busy
  | canceled
  | child
  | connAborted
  | connRefused
  | connReset
  | deadlk
  | destAddrReq
  | dom
  | dquot
  | exist
  | fault
  | fbig
  | hostUnreach
  | idrm
  | ilseq
  | inProgress
  | intr
  | inval
  | io
  | isConn
  | isDir
  | loop
  | mfile
  | mlink
  | msgSize
  | multihop
  | nameTooLong
  | netDown
  | netReset
  | netUnreach
  | nfile
  | noBufs
  | noDev
  | noEnt
  | noExec
  | noLck
  | noLink
  | noMem
  | noMsg
  | noProtoOpt
  | noSpc
  | noSys
  | notConn
  | notDir
  | notEmpty
  | notRecoverable
  | notSock
  | notSup
  | notTy
  | nxio
  | overflow
  | ownerDead
  | perm
  | pipe
  | proto
  | protoNoSupport
  | protoType
  | range
  | rofs
  | spipe
  | srch
  | stale
  | timedOut
  | txtBsy
  | xdev
  | notCapable
  deriving DecidableEq, Repr

namespace Errno

/-- The position of a code in the published table. -/
def number (e : Errno) : Nat := e.ctorIdx

/-- The word that an import hands back to the guest. -/
def raw (e : Errno) : UInt32 := UInt32.ofNat e.number

/-- The codes with their names, in the order of the table. -/
def table : List (String × Errno) := [
  ("Success", .success), ("TooBig", .tooBig), ("Access", .access), ("AddrInUse", .addrInUse),
  ("AddrNotAvail", .addrNotAvail), ("AfNoSupport", .afNoSupport), ("Again", .again), ("Already", .already),
  ("Badf", .badf), ("BadMsg", .badMsg), ("Busy", .busy), ("Canceled", .canceled),
  ("Child", .child), ("ConnAborted", .connAborted), ("ConnRefused", .connRefused), ("ConnReset", .connReset),
  ("Deadlk", .deadlk), ("DestAddrReq", .destAddrReq), ("Dom", .dom), ("Dquot", .dquot),
  ("Exist", .exist), ("Fault", .fault), ("Fbig", .fbig), ("HostUnreach", .hostUnreach),
  ("Idrm", .idrm), ("Ilseq", .ilseq), ("InProgress", .inProgress), ("Intr", .intr),
  ("Inval", .inval), ("Io", .io), ("IsConn", .isConn), ("IsDir", .isDir),
  ("Loop", .loop), ("Mfile", .mfile), ("Mlink", .mlink), ("MsgSize", .msgSize),
  ("Multihop", .multihop), ("NameTooLong", .nameTooLong), ("NetDown", .netDown), ("NetReset", .netReset),
  ("NetUnreach", .netUnreach), ("Nfile", .nfile), ("NoBufs", .noBufs), ("NoDev", .noDev),
  ("NoEnt", .noEnt), ("NoExec", .noExec), ("NoLck", .noLck), ("NoLink", .noLink),
  ("NoMem", .noMem), ("NoMsg", .noMsg), ("NoProtoOpt", .noProtoOpt), ("NoSpc", .noSpc),
  ("NoSys", .noSys), ("NotConn", .notConn), ("NotDir", .notDir), ("NotEmpty", .notEmpty),
  ("NotRecoverable", .notRecoverable), ("NotSock", .notSock), ("NotSup", .notSup), ("NotTy", .notTy),
  ("Nxio", .nxio), ("Overflow", .overflow), ("OwnerDead", .ownerDead), ("Perm", .perm),
  ("Pipe", .pipe), ("Proto", .proto), ("ProtoNoSupport", .protoNoSupport), ("ProtoType", .protoType),
  ("Range", .range), ("Rofs", .rofs), ("Spipe", .spipe), ("Srch", .srch),
  ("Stale", .stale), ("TimedOut", .timedOut), ("TxtBsy", .txtBsy), ("Xdev", .xdev),
  ("NotCapable", .notCapable) ]

def ofName? (name : String) : Option Errno := table.lookup name

/-- The table lists each code at its number. -/
theorem getElem?_table_number (e : Errno) : (table[e.number]?).map Prod.snd = some e := by cases e <;> rfl

theorem number_lt (e : Errno) : e.number < 77 := by cases e <;> decide

theorem number_injective {d e : Errno} (h : d.number = e.number) : d = e := by
  have hd := getElem?_table_number d
  rw [h, getElem?_table_number e] at hd
  exact (Option.some.inj hd).symm

@[simp] theorem toNat_raw (e : Errno) : e.raw.toNat = e.number := by
  have h := number_lt e
  simp [raw]
  omega

end Errno

end GuestHost
