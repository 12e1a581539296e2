import NftMarketplace.Cosmwasm.Math

/-!
What a contract sees of the chain: addresses, coins, the block, and the messages it emits.
The address functions and the queries answered by other modules are parameters.
-/

namespace Cosmwasm

abbrev Addr := String

structure CanonicalAddr where
  bytes : List UInt8
  deriving DecidableEq

structure Coin where
  denom : String
  amount : Uint128
  deriving DecidableEq

structure MessageInfo where
  sender : Addr
  funds : List Coin
  deriving DecidableEq

structure Env where
  blockTime : Timestamp
  contractAddress : Addr

structure Api where
  addrValidate : String → Except StdError Addr
  addrCanonicalize : String → Except StdError CanonicalAddr
  addrHumanize : CanonicalAddr → Except StdError Addr

/-- `addr_humanize` is the inverse of `addr_canonicalize`: what one accepts the other takes back. -/
structure Api.Lawful (api : Api) : Prop where
  humanize : ∀ {a c}, api.addrCanonicalize a = .ok c → ∃ h, api.addrHumanize c = .ok h
  canonicalize : ∀ {c h}, api.addrHumanize c = .ok h → api.addrCanonicalize h = .ok c

structure MinterData where
  minter : Addr
  cap : Option Uint128

structure TalisInfo where
  minter : Option String
  maxSupply : Option Nat

/-- What other modules answer while a message is handled. The two minter queries give nothing
where the call fails or the answer does not parse. -/
structure Querier where
  taxRate : Except StdError Decimal
  taxCap : String → Except StdError Uint128
  minter : Addr → Option MinterData
  mintingInfo : Addr → Option TalisInfo

structure Deps where
  api : Api
  querier : Querier

inductive Cw721ExecuteMsg where
  | transferNft (recipient tokenId : String)
  deriving DecidableEq

inductive Cw20ExecuteMsg where
  | mint (recipient : String) (amount : Uint128)
  | burn (amount : Uint128)
  deriving DecidableEq

/-- cw20-base's `InstantiateMsg`, less the initial balances and the marketing entry left empty. -/
structure Cw20InstantiateMsg where
  name : String
  symbol : String
  decimals : Nat
  minter : String
  deriving DecidableEq

inductive WasmMsg where
  | executeCw721 (contractAddr : String) (msg : Cw721ExecuteMsg)
  | executeCw20 (contractAddr : String) (msg : Cw20ExecuteMsg)
  | instantiateCw20 (admin : String) (codeId : Nat) (msg : Cw20InstantiateMsg) (label : String)
  deriving DecidableEq

/-- A message to another module. `gross` is not part of a bank transfer: it keeps the amount from
which the tax was deducted, for the accounts kept about a run. -/
inductive CosmosMsg where
  | bankSend (toAddress : String) (amount : List Coin) (gross : Uint128)
  | wasm (msg : WasmMsg)
  deriving DecidableEq

structure Response where
  messages : List CosmosMsg
  attributes : List (String × String)
  deriving DecidableEq

def CosmosMsg.gross : CosmosMsg → Nat
  | .bankSend _ _ gross => gross.u128
  | .wasm _ => 0

def CosmosMsg.nft : CosmosMsg → Option (Addr × String)
  | .wasm (.executeCw721 collection (.transferNft _ tokenId)) => some (collection, tokenId)
  | _ => none

/-- The recipient and the amount of a `Cw20ExecuteMsg::Mint`. -/
def CosmosMsg.minted : CosmosMsg → Option (String × Uint128)
  | .wasm (.executeCw20 _ (.mint recipient amount)) => some (recipient, amount)
  | _ => none

def CosmosMsg.burnt : CosmosMsg → Option Uint128
  | .wasm (.executeCw20 _ (.burn amount)) => some amount
  | _ => none

/-- The recipient of a bank transfer and the amount from which its tax was deducted. -/
def CosmosMsg.paid : CosmosMsg → Option (String × Nat)
  | .bankSend toAddress _ gross => some (toAddress, gross.u128)
  | .wasm _ => none

/-- The message to the cw721 contract at `collection`. -/
def CosmosMsg.cw721 (api : Api) (collection : CanonicalAddr) : CosmosMsg → Option Cw721ExecuteMsg
  | .wasm (.executeCw721 contractAddr msg) => if api.addrCanonicalize contractAddr = .ok collection then some msg else none
  | _ => none

/-- The message to the cw20 contract at `token`. -/
def CosmosMsg.cw20 (api : Api) (token : CanonicalAddr) : CosmosMsg → Option Cw20ExecuteMsg
  | .wasm (.executeCw20 contractAddr msg) => if api.addrCanonicalize contractAddr = .ok token then some msg else none
  | _ => none

def CosmosMsg.Transfer : CosmosMsg → Prop
  | .bankSend _ _ _ => True
  | .wasm _ => False

def Response.gross (r : Response) : Nat := (r.messages.map CosmosMsg.gross).sum

end Cosmwasm
