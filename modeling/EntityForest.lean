import EntityForest.Script.Run
import EntityForest.Proofs.Transfers
import EntityForest.Proofs.Violations
import EntityForest.Proofs.History
import EntityForest.Proofs.Deaths
import EntityForest.Proofs.Containment
import EntityForest.Proofs.OwnerForest
import EntityForest.Proofs.Finality
import EntityForest.Proofs.Survivors
import EntityForest.Proofs.Limits
import EntityForest.Proofs.Ownership
import EntityForest.Proofs.Tops
import EntityForest.Proofs.Adoptions
import EntityForest.Proofs.BagMaps
import EntityForest.Proofs.Creations
import EntityForest.Proofs.Notifications
import EntityForest.Proofs.BulkMoves
import EntityForest.Proofs.Consultations
import EntityForest.Proofs.Mirrors
import EntityForest.Proofs.BulkCopies
import EntityForest.Proofs.Buses
import EntityForest.Proofs.Buildings
import EntityForest.Proofs.Climbs
import EntityForest.Proofs.Listings
import EntityForest.Proofs.Numerals
import EntityForest.Proofs.Keys
import EntityForest.Proofs.Documents
import EntityForest.Proofs.Settings
