import NftMarketplace.Contract.Settlement

/-! Royalties, the two token notifications and the dispatch of messages. -/

namespace NftMarketplace
open Cosmwasm Outcome

/-- `set_recipient` of `execute_update_royalty`: the sender unless another address is given. -/
def royaltyRecipient (deps : Deps) (rawSender : CanonicalAddr) : Option String → Result CanonicalAddr
  | none => .ok rawSender
  | some address => do
    let valid ← std (deps.api.addrValidate address)
    std (deps.api.addrCanonicalize valid)

def writeRoyalty (royalty : FiniteMap CanonicalAddr RoyaltyInfo) (rawSender : CanonicalAddr) (fee : Decimal)
    (recipient : Option String) (setRecipient : CanonicalAddr) : Result (FiniteMap CanonicalAddr RoyaltyInfo) :=
  match royalty.mayLoad rawSender with
  | none => .ok (royalty.save rawSender { creator := rawSender, fee, recipient := some setRecipient })
  | some _ => royalty.update rawSender fun stored => do
    let updatedRoyalty ← unwrapSome stored
    return {
      updatedRoyalty with
      recipient := if recipient.isSome then some setRecipient else updatedRoyalty.recipient
      fee }

def executeUpdateRoyalty (deps : Deps) (s : Storage) (_env : Env) (info : MessageInfo) (fee : Decimal)
    (recipient : Option String) : Result (Storage × Response) := do
  let rawSender ← std (deps.api.addrCanonicalize info.sender)
  reject (royaltyMaxFee < fee) .maxRoyaltyReached
  let setRecipient ← royaltyRecipient deps rawSender recipient
  let royalty ← writeRoyalty s.royalty rawSender fee recipient setRecipient
  let announced ← unwrap (deps.api.addrHumanize setRecipient)
  return (
    { s with royalty },
    { messages := []
      attributes :=
        [("update_royalty", info.sender), ("royalty_fee", fee.toString), ("recipient", announced)] })

def executeReceiveCw721 (deps : Deps) (s : Storage) (env : Env) (info : MessageInfo)
    (wrapper : Cw721ReceiveMsg) : Result (Storage × Response) := do
  let msg ← std wrapper.msg
  match msg with
  | .createAuctionNft args => executeCreateAuction deps s env info wrapper.sender wrapper.tokenId args
  | .registerPrivateSale _ => .error (.err .unauthorized)

def executeReceiveCw20 (deps : Deps) (s : Storage) (env : Env) (info : MessageInfo)
    (wrapper : Cw20ReceiveMsg) : Result (Storage × Response) := do
  let cw20 ← std (deps.api.addrHumanize s.state.cw20Address)
  reject (info.sender ≠ cw20) .unauthorized
  let msg ← std wrapper.msg
  match msg with
  | .registerPrivateSale auctionId =>
    executeRegisterPrivateSale deps s env info wrapper.sender wrapper.amount auctionId
  | .createAuctionNft _ => .error (.err .unauthorized)

def execute (deps : Deps) (s : Storage) (env : Env) (info : MessageInfo) : ExecuteMsg → Result (Storage × Response)
  | .instantBuy auctionId => executeInstantBuy deps s env info auctionId
  | .withdrawNft auctionId => executeWithdrawNft deps s env info auctionId
  | .placeBid auctionId => executePlaceBid deps s env info auctionId
  | .retractBids auctionId => executeRetractBids deps s env info auctionId
  | .updateRoyalty fee recipient => executeUpdateRoyalty deps s env info fee recipient
  | .receiveNft wrapper => executeReceiveCw721 deps s env info wrapper
  | .receive wrapper => executeReceiveCw20 deps s env info wrapper
  | .cancelAuction auctionId => executeCancelAuction deps s env info auctionId

end NftMarketplace
