import Coffer.Wallet.Record

-- Accounts as they are handed in. Their members are checked when a record is
-- read, not when it is written.

namespace Coffer.Wallet

structure Account where
  index : Value
  coinType : Value
  label : Value
  publicAddresses : Value
  internalAddresses : Value
  pendingTransactions : Value
  incomingTransactions : Value
  deriving Repr

namespace Account

def ofIndex (index : Value) : Account :=
  ⟨index, .int defaultCoinType, .text "", .list [], .list [], .list [], .dict []⟩

def toValue (a : Account) : Value :=
  .record accountKind
    [("index", a.index), ("coin_type", a.coinType), ("alias", a.label),
      ("public_addresses", a.publicAddresses), ("internal_addresses", a.internalAddresses),
      ("pending_transactions", a.pendingTransactions),
      ("incoming_transactions", a.incomingTransactions)]

end Account

end Coffer.Wallet
