import HcOmni.Lib.Scan
import HcOmni.Persist.Format

/-!
# Databases of trades, transactions, receipts and agreements

`dbtradelist.cpp`, `dbtxlist.cpp`, `dbstolist.cpp` and `dbagreementtradelist.cpp`: records are texts with
fields between colons, stored in LevelDB under keys made from transaction hashes or addresses.  A loop
over a database goes through a snapshot in the order of the keys, so what it deletes or writes does not
change what it sees.
-/

namespace HcOmni

open Std Text Scan

/-! ### Texts -/

/-- A LevelDB database. -/
abbrev Database := ExtTreeMap Str Str compare

/-- The fields of a record, joined by colons. -/
def colons (tokens : List Str) : Str := [':'].intercalate tokens

/-- `boost::split(vstr, value, boost::is_any_of(":"), boost::token_compress_on)` -/
def splitColons (value : Str) : List Str := splitTokens (· == ':') value

/-- `boost::split(vstr, value, boost::is_any_of(","), boost::token_compress_on)` -/
def splitCommas (value : Str) : List Str := splitTokens (· == ',') value

/-- `atoi`, for a `long` of 64 bits: a number out of its range becomes the nearest one in it, and the
result is cast to `int`. -/
def atoi32 (text : Str) : Int :=
  toInt32 (max (-2 ^ 63) (min (2 ^ 63 - 1) (atoi (text.dropWhile isSpace))))

/-- The bytes of a hash as they are stored and compared, the lowest first. -/
def hashBytes (hash : Hash) : List Nat := (List.range 32).map fun i => hash / 256 ^ i % 256

/-- The order of pairs of a block and a hash, in which lists of transactions are sorted. -/
def loadsBefore (a b : Int × Hash) : Bool :=
  decide (a.1 < b.1) || (decide (a.1 = b.1) && decide (hashBytes a.2 ≤ hashBytes b.2))

/-! ### Trades -/

/-- A call of `recordNewTrade` or `recordMatchedTrade`. -/
inductive TradeRecord where
  | newTrade (txid : Hash) (address : Address) (propertyIdForSale propertyIdDesired : PropertyId)
      (blockNum blockIndex : Int)
  | matchedTrade (txid1 txid2 : Hash) (address1 address2 : Address) (prop1 prop2 : PropertyId)
      (amount1 amount2 blockNum fee : Int)
  deriving DecidableEq, Repr

namespace TradeRecord

def key : TradeRecord → Str
  | .newTrade txid .. => uint256ToString txid
  | .matchedTrade txid1 txid2 .. => uint256ToString txid1 ++ '+' :: uint256ToString txid2

def value : TradeRecord → Str
  | .newTrade _ address propertyIdForSale propertyIdDesired blockNum blockIndex =>
      colons [address, decimal propertyIdForSale, decimal propertyIdDesired, showInt blockNum,
        showInt blockIndex]
  | .matchedTrade _ _ address1 address2 prop1 prop2 amount1 amount2 blockNum fee =>
      colons [address1, address2, decimal prop1, decimal prop2, showInt amount1, showInt amount2,
        showInt blockNum, showInt fee]

/-- The block of the trade. -/
def blockNum : TradeRecord → Int
  | .newTrade _ _ _ _ blockNum _ => blockNum
  | .matchedTrade _ _ _ _ _ _ _ _ blockNum _ => blockNum

end TradeRecord

namespace CMPTradeList

/-- `recordNewTrade` and `recordMatchedTrade` -/
def write (db : Database) (record : TradeRecord) : Database := db.insert record.key record.value

/-- What `deleteAboveBlock` makes of the variable `block` at a record.  Matches are meant to be the
records with seven fields. -/
def readBlock (block : Int) (value : Str) : Int :=
  let vstr := splitColons value
  let block := if vstr.length = 7 then atoi32 (vstr.getD 6 []) else block
  if vstr.length = 5 then atoi32 (vstr.getD 3 []) else block

/-- `deleteAboveBlock`: the number of deleted records, and the database after it. -/
def deleteAboveBlock (blockNum : Int) (db : Database) : Nat × Database :=
  scanErase readBlock (fun block _ => decide (block ≥ blockNum)) 0 db.toList (0, db)

end CMPTradeList

/-! ### Transactions -/

/-- A record of `CMPTxList`.  The payments and the orders that are cancelled in a transaction are stored
without its block. -/
inductive TxListEntry where
  /-- `recordTX`, and the main record of payments and of cancels -/
  | main (fValid : Bool) (nBlock : Int) (type nValue : Nat)
  /-- a payment of a transaction of the block -/
  | payment (nBlock : Int) (vout : Nat) (buyer seller : Str) (propertyId : PropertyId) (nValue : Nat)
  /-- an order cancelled in a transaction of the block -/
  | cancel (nBlock : Int) (txidSub : Hash) (propertyId : PropertyId) (nValue : Nat)
  | sendAll (propertyId : PropertyId) (block nValue : Int)
  | dbversion (version : Nat)
  deriving DecidableEq, Repr

namespace TxListEntry

def value : TxListEntry → Str
  | .main fValid nBlock type nValue =>
      colons [decimal (if fValid then 1 else 0), showInt nBlock, decimal type, decimal nValue]
  | .payment _ vout buyer seller propertyId nValue =>
      colons [decimal vout, buyer, seller, decimal propertyId, decimal nValue]
  | .cancel _ txidSub propertyId nValue =>
      colons [uint256ToString txidSub, decimal propertyId, decimal nValue]
  | .sendAll propertyId block nValue => colons [decimal propertyId, showInt block, showInt nValue]
  | .dbversion version => decimal version

/-- The block of the transaction a record was written for. -/
def block? : TxListEntry → Option Int
  | .main _ nBlock .. => some nBlock
  | .payment nBlock .. => some nBlock
  | .cancel nBlock .. => some nBlock
  | .sendAll _ block _ => some block
  | .dbversion _ => none

end TxListEntry

/-- The calls that write to `CMPTxList`. -/
inductive TxListCall where
  | recordTX (txid : Hash) (fValid : Bool) (nBlock : Int) (type nValue : Nat)
  | recordPaymentTX (txid : Hash) (fValid : Bool) (nBlock : Int) (vout : Nat) (propertyId : PropertyId)
      (nValue : Nat) (buyer seller : Str)
  | recordMetaDExCancelTX (txidMaster txidSub : Hash) (fValid : Bool) (nBlock : Int)
      (propertyId : PropertyId) (nValue : Nat)
  | recordSendAllSubRecord (txid : Hash) (subRecordNumber : Int) (propertyId : PropertyId)
      (block nValue : Int)
  | setDBVersion
  deriving DecidableEq, Repr

namespace CMPTxList

def DB_VERSION : Nat := 6

/-- The number of payments or of cancelled orders so far, a `uint64_t`, from the main record. -/
def existingNumber (strValue : Option Str) : Nat :=
  match strValue with
  | none => 0
  | some strValue =>
      let vstr := splitColons strValue
      if 4 ≤ vstr.length then (atoi32 (vstr.getD 3 []) % 2 ^ 64).toNat else 0

/-- What a call writes, given what is stored. -/
def written (stored : Str → Option Str) : TxListCall → List (Str × TxListEntry)
  | .recordTX txid fValid nBlock type nValue =>
      [(uint256ToString txid, .main fValid nBlock type nValue)]
  | .recordPaymentTX txid fValid nBlock vout propertyId nValue buyer seller =>
      let key := uint256ToString txid
      let numberOfPayments := existingNumber (stored key) + 1
      [(key, .main fValid nBlock 99999999 (numberOfPayments % 2 ^ 64)),
        (key ++ '-' :: decimal (numberOfPayments % 2 ^ 32),
          .payment nBlock vout buyer seller propertyId nValue)]
  | .recordMetaDExCancelTX txidMaster txidSub fValid nBlock propertyId nValue =>
      let key := uint256ToString txidMaster ++ ['-', 'C']
      let refNumber := (existingNumber (stored key) + 1) % 2 ^ 32
      [(key, .main fValid nBlock 99992104 refNumber),
        (key ++ decimal refNumber, .cancel nBlock txidSub propertyId nValue)]
  | .recordSendAllSubRecord txid subRecordNumber propertyId block nValue =>
      [(uint256ToString txid ++ '-' :: showInt subRecordNumber, .sendAll propertyId block nValue)]
  | .setDBVersion => [("dbversion".toList, .dbversion DB_VERSION)]

/-- The database after a call. -/
def write (db : Database) (call : TxListCall) : Database :=
  (written (db[·]?) call).foldl (fun db entry => db.insert entry.1 entry.2.value) db

/-- Whether `isMPinBlockRange` finds a record. -/
def inBlockRange (startingBlock endingBlock : Int) (value : Str) : Bool :=
  let vstr := splitColons value
  decide (2 ≤ vstr.length) && decide (startingBlock ≤ atoi32 (vstr.getD 1 [])) &&
    decide (atoi32 (vstr.getD 1 []) ≤ endingBlock)

/-- `isMPinBlockRange` with deletion: whether a record was found, and the database after it. -/
def isMPinBlockRange (startingBlock endingBlock : Int) (db : Database) : Bool × Database :=
  let result := scanErase (fun (_ : Unit) _ => ())
    (fun _ value => inBlockRange startingBlock endingBlock value) () db.toList (0, db)
  (decide (result.1 ≠ 0), result.2)

end CMPTxList

/-! ### Receipts of sends to owners -/

/-- A receipt, as it is recorded for an address. -/
structure STOReceipt where
  txid : Hash
  nBlock : Int
  propertyId : PropertyId
  amount : Nat
  deriving DecidableEq, Repr

def STOReceipt.value (receipt : STOReceipt) : Str :=
  colons [uint256ToString receipt.txid, showInt receipt.nBlock, decimal receipt.propertyId,
    decimal receipt.amount]

namespace CMPSTOList

/-- `recordSTOReceive`: the receipt and a comma, behind what is there. -/
def recordSTOReceive (address : Address) (receipt : STOReceipt) (db : Database) : Database :=
  match db[address]? with
  | some strValue => db.insert address (strValue ++ (receipt.value ++ [',']))
  | none => db.insert address (receipt.value ++ [','])

/-- One round of the inner loop of `deleteAboveBlock`, with `newValue` and `needsUpdate`. -/
def keepRecord (blockNum : Int) (acc : Str × Bool) (record : Str) : Str × Bool :=
  let vecSTORecordFields := splitColons record
  if vecSTORecordFields.length ≠ 4 then acc
  else if atoi32 (vecSTORecordFields.getD 1 []) < blockNum then (acc.1 ++ (record ++ [',']), acc.2)
  else (acc.1, true)

/-- The inner loop of `deleteAboveBlock`. -/
def keepRecords (blockNum : Int) (oldValue : Str) : Str × Bool :=
  (splitCommas oldValue).foldl (keepRecord blockNum) ([], false)

/-- One round of the outer loop of `deleteAboveBlock`. -/
def rewriteRecords (blockNum : Int) (acc : Nat × Database) (entry : Str × Str) : Nat × Database :=
  let kept := keepRecords blockNum entry.2
  if kept.2 then (acc.1 + 1, acc.2.insert entry.1 kept.1) else acc

/-- `deleteAboveBlock`: the number of records that were rewritten, and the database after it. -/
def deleteAboveBlock (blockNum : Int) (db : Database) : Nat × Database :=
  db.toList.foldl (rewriteRecords blockNum) (0, db)

end CMPSTOList

/-! ### Agreements -/

/-- A call of `CMPAgtTradeList::recordNewTrade`. -/
structure AgreementRecord where
  txid : Hash
  sender : Address
  receiver : Address
  agtId : Str
  blockNum : Int
  blockIndex : Int
  deriving DecidableEq, Repr

def AgreementRecord.value (record : AgreementRecord) : Str :=
  colons [record.sender, record.receiver, record.agtId, showInt record.blockNum,
    showInt record.blockIndex]

namespace CMPAgtTradeList

/-- `recordNewTrade` -/
def recordNewTrade (db : Database) (record : AgreementRecord) : Database :=
  db.insert (uint256ToString record.txid) record.value

/-- `RollBackHistory`: the number that is compared with the block is zero for every record, since the
conversion of the key is commented out. -/
def rollBackHistory (block : Int) (db : Database) : Database :=
  (scanErase (fun (_ : Unit) _ => ()) (fun _ _ => decide ((0 : Int) ≥ block)) () db.toList (0, db)).2

end CMPAgtTradeList

end HcOmni
