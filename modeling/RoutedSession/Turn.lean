/-!
How long a task goes on before it lets the others go first. What a task does to streams and queues
is counted in transfers: a read, a write, and a frame that is taken out of the queue to begin a
batch.
-/

namespace RoutedSession

/-- The number of transfers after which a turn is over. -/
def transfersPerTurn : Nat := 128

end RoutedSession
