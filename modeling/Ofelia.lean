import Ofelia.Go.Basic
import Ofelia.Go.Float
import Ofelia.Go.Duration
import Ofelia.Go.Sort
import Ofelia.Go.Sort.Perm
import Ofelia.Go.Sort.Insertion
import Ofelia.Go.Sort.Heap
import Ofelia.Go.Sort.Partition
import Ofelia.Go.Sort.Pdqsort
import Ofelia.Json.Encode
import Ofelia.Json.Decode
import Ofelia.Json.RoundTrip
import Ofelia.Json.Values
import Ofelia.Json.Fuel
import Ofelia.Config.Definition
import Ofelia.Template.Data
import Ofelia.Template.Lex
import Ofelia.Template.LexTotal
import Ofelia.Template.Parse
import Ofelia.Template.Value
import Ofelia.Template.Fmt
import Ofelia.Template.Funcs
import Ofelia.Template.Exec
import Ofelia.Template.ParseTotal
import Ofelia.Template.Fields
import Ofelia.Template.Conditionals
import Ofelia.Template.CondBody
import Ofelia.Template.Body
import Ofelia.Delivery.Webhook
import Ofelia.Delivery.Send
import Ofelia.Dispatch.Global
import Ofelia.Dispatch.PerJob
import Ofelia.Dispatch.Load
