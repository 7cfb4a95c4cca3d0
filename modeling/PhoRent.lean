import PhoRent.Lib.Keyed
import PhoRent.Lib.Indexed
import PhoRent.Lib.Interleave
import PhoRent.Lib.Machine
import PhoRent.Lib.Requests
import PhoRent.Lib.Simulation
import PhoRent.Lib.Js
import PhoRent.Lib.Unicode
import PhoRent.Lib.Regex
import PhoRent.Lib.RegexLanguage
import PhoRent.Lib.Mask
import PhoRent.Lib.WriteQueue
import PhoRent.Store.Docs
import PhoRent.Store.Units
import PhoRent.Functions.AddItem
import PhoRent.Functions.DeleteItem
import PhoRent.Functions.Callable
import PhoRent.Functions.Play
import PhoRent.Functions.Alone
import PhoRent.Shop.Shop
import PhoRent.App.BasketItem
import PhoRent.App.NetworkService
import PhoRent.App.Completions
import PhoRent.App.BasketPresenter
import PhoRent.App.BasketView
import PhoRent.App.OrdersPresenter
import PhoRent.App.PreviousOrders
import PhoRent.App.CategoryPresenter
import PhoRent.App.FiltersView
import PhoRent.App.FiltersPage
import PhoRent.App.Catalog
import PhoRent.App.World
import PhoRent.App.Navigation
import PhoRent.App.Router
import PhoRent.App.SignUpView
import PhoRent.App.AuthForms
import PhoRent.App.Accounts
import PhoRent.App.PersonalView
import PhoRent.App.People
import PhoRent.Proofs.Answer
import PhoRent.Proofs.HalfDone
import PhoRent.Proofs.Payloads
import PhoRent.Proofs.Positions
import PhoRent.Proofs.Effect
import PhoRent.Proofs.Signs
import PhoRent.Proofs.RightItem
import PhoRent.Proofs.StockRace
import PhoRent.Proofs.Independence
import PhoRent.Proofs.DoubleRemoval
import PhoRent.Proofs.LineRace
import PhoRent.Proofs.HandOver
import PhoRent.Proofs.OrderOutcome
import PhoRent.Proofs.OrderOnce
import PhoRent.Proofs.Conservation
import PhoRent.Proofs.Copies
import PhoRent.Proofs.CompletedOnce
import PhoRent.Proofs.BasketScreen
import PhoRent.Proofs.OrderHistory
import PhoRent.Proofs.RoundTrip
import PhoRent.Proofs.AddFromRow
import PhoRent.Proofs.RootScreen
import PhoRent.Proofs.RemovedRow
import PhoRent.Proofs.Undone
import PhoRent.Proofs.FiltersPopover
import PhoRent.Proofs.FiltersPage
import PhoRent.Proofs.CheckBoxes
import PhoRent.Proofs.ShownItems
import PhoRent.Proofs.UntouchedFilter
import PhoRent.Proofs.LoadEnds
import PhoRent.Proofs.CatalogAnswer
import PhoRent.Proofs.Profiles
import PhoRent.Proofs.PhoneField
import PhoRent.Proofs.PasswordRule
import PhoRent.Proofs.ShopServed
import PhoRent.Proofs.Screens
import PhoRent.Proofs.World
import PhoRent.Proofs.OwnRequests
import PhoRent.Proofs.Navigation
import PhoRent.Proofs.CallsEnd
import PhoRent.Proofs.History
import PhoRent.Proofs.Addresses
import PhoRent.Proofs.Forms
import PhoRent.Proofs.People
import PhoRent.Proofs.PersonalScreen
import PhoRent.Proofs.ShopAtWork
import PhoRent.Proofs.ShownAgain
import PhoRent.Proofs.OwnDocuments
import PhoRent.Proofs.Settling
