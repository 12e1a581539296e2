import NftMarketplace.Runs.Aborts
import NftMarketplace.Runs.Answers
import NftMarketplace.Runs.Authority
import NftMarketplace.Runs.Bank
import NftMarketplace.Runs.Cancelling
import NftMarketplace.Runs.Closing
import NftMarketplace.Runs.Collections
import NftMarketplace.Runs.Custody
import NftMarketplace.Runs.Drain
import NftMarketplace.Runs.Emissions
import NftMarketplace.Runs.Ending
import NftMarketplace.Runs.Executable
import NftMarketplace.Runs.Funds
import NftMarketplace.Runs.Interleaving
import NftMarketplace.Runs.Isolation
import NftMarketplace.Runs.Issuance
import NftMarketplace.Runs.Outbidding
import NftMarketplace.Runs.Purchases
import NftMarketplace.Runs.Queries
import NftMarketplace.Runs.Quotes
import NftMarketplace.Runs.Raises
import NftMarketplace.Runs.Registrations
import NftMarketplace.Runs.Reserve
import NftMarketplace.Runs.Royalties
import NftMarketplace.Runs.Sales
import NftMarketplace.Runs.Schedule
import NftMarketplace.Runs.Supply
import NftMarketplace.Runs.Taxes
import NftMarketplace.Runs.Verdict
import NftMarketplace.Runs.Views
import NftMarketplace.Runs.Window
